import Webshelf.Snowflake.Workers

/-!
# Is a worker id held by one process?

The INSERT takes a worker id only if the table has no row for it, so a row
keeps its worker id to the call that inserted it as long as the row is there.
A clean-up that finds the row stale takes it away; heartbeat and deregistration
go on to name the worker id, whoever has it by then.
-/

namespace Webshelf

open Runs

abbrev Registry := Threads.State Workers Registration

abbrev RegistryLabel := Threads.Label Registration WorkerInput WorkersMove

namespace Registry

def step : Registry → RegistryLabel → Option Registry := Threads.step init

/-- Where call `n` is. -/
def phase (s : Registry) (n : Nat) : Option Init :=
  s.threads[n]?.map (·.phase)

/-- The process runs, and one of its calls of `init` has a row under `wid`. -/
def Live (s : Registry) (p : ProcessId) (wid : Nat) : Prop :=
  s.shared.crashed p = false ∧ ∃ r ∈ s.threads, r.process = p ∧ r.phase.holds = some wid

instance (s : Registry) (p : ProcessId) (wid : Nat) : Decidable (s.Live p wid) :=
  inferInstanceAs (Decidable (_ ∧ ∃ r ∈ s.threads, _))

/-- The row was inserted by a call of the process. -/
def Inserted (s : Registry) (p : ProcessId) (row : SnowflakeWorker) : Prop :=
  ∃ n r, row.insertedBy = some n ∧ s.threads[n]? = some r ∧ r.process = p

/-- The rows of all running processes have a heartbeat less than
`STALE_WORKER_SECS` old. -/
def fresh (s : Registry) : Bool :=
  s.threads.all fun r => s.shared.crashed r.process || r.phase.holds.all fun wid =>
    (s.shared.table wid).all fun row =>
      decide (s.shared.clock - row.heartbeat < seconds STALE_WORKER_SECS)

/-- Whenever `clean_stale_workers` runs, the rows of running processes are fresh. -/
def keepsBeating (s : Registry) : RegistryLabel → Bool
  | .step n (.go _) => match s.phase n with
    | some (.clean _) => s.fresh
    | _ => true
  | _ => true

/-- No worker id is inserted that a running process has registered before. -/
def insertsApart (s : Registry) : RegistryLabel → Bool
  | .step n (.go outcome) => match s.phase n with
    | some (.insert _ wid _) => outcome == .failed || (s.shared.table wid).isSome ||
      s.threads.all fun r => s.shared.crashed r.process || r.phase.holds != some wid
    | _ => true
  | _ => true

/-- The row that a heartbeat or a deregistration changes, with the process that
sends the statement. -/
def affected (s : Registry) : RegistryLabel → Option (ProcessId × SnowflakeWorker)
  | .step n (.go outcome) => s.threads[n]?.bind fun r =>
    if s.shared.crashed r.process || outcome == .failed then none
    else match r.phase with
      | .heartbeat wid _ | .deregister wid => (s.shared.table wid).map (r.process, ·)
      | _ => none
  | _ => none

/-- A call that runs and holds a worker id finds its row, and its deadline is
past when it cleans up. -/
structure Keeps (s : Workers) (n : Nat) (r : Registration) : Prop where
  row : ∀ wid, r.phase.holds = some wid →
    ∃ row, s.table wid = some row ∧ row.insertedBy = some n
  deadline : ∀ d, r.phase = .clean d → d ≤ s.clock - seconds STALE_WORKER_SECS

/-- A row under the worker id of a running call is its own. -/
def Owns (s : Workers) (n : Nat) (r : Registration) : Prop :=
  ∀ wid row, r.phase.holds = some wid → s.table wid = some row → row.insertedBy = some n

/-- An assertion about the calls of running processes. -/
abbrev Running (A : Workers → Nat → Registration → Prop) : Registry → Prop :=
  Threads.Holds (fun _ => True) fun s n r => s.crashed r.process = false → A s n r

/-- No process has started, and the table is empty. -/
def noWorkers : Registry :=
  ⟨⟨0, fun _ => none, fun _ => none, fun _ => false⟩, []⟩

/-- Process `p` calls `init`, which is call `n`, and gets to its heartbeat task. -/
def starts (p : ProcessId) (n : Nat) : List RegistryLabel :=
  .begin ⟨p, "web", 1, .start⟩ :: List.replicate 6 (.step n (.go .done))

/-- Two servers start, and the first stops. -/
def twoServers : List RegistryLabel :=
  starts 1 0 ++ [.surround (.tick 10000000), .step 0 (.go .done), .step 0 (.go .done)] ++
    starts 2 1

/-- The first server pauses for 31 seconds, a second one takes over its worker
id, and the first one shuts down. -/
def longPause : List RegistryLabel :=
  starts 1 0 ++ [.surround (.tick 31000000)] ++ starts 2 1 ++ [.step 0 .stop]

variable {s s' s₀ : Registry} {l : RegistryLabel} {n : Nat} {r : Registration} {wid : Nat}

theorem phase_of_get (hr : s.threads[n]? = some r) : s.phase n = some r.phase := by
  rw [phase, hr]
  rfl

theorem fresh_row (h : s.fresh = true) (hr : s.threads[n]? = some r)
    (hrun : s.shared.crashed r.process = false) (hw : r.phase.holds = some wid)
    {row : SnowflakeWorker} (hrow : s.shared.table wid = some row) :
    s.shared.clock - row.heartbeat < seconds STALE_WORKER_SECS := by
  have h := List.all_eq_true.mp h r (List.mem_of_getElem? hr)
  rw [hrun, hw, Bool.false_or, Option.all_some, hrow, Option.all_some] at h
  exact of_decide_eq_true h

theorem beat_table {a : Workers} {now : Time} {row : SnowflakeWorker} {wid' : Nat}
    (h : (a.beat wid now).table wid' = some row) :
    ∃ row', a.table wid' = some row' ∧ row'.insertedBy = row.insertedBy := by
  simp only [Workers.beat, Workers.setRow] at h
  by_cases hw : wid' = wid
  · subst hw
    rw [Function.update_self] at h
    obtain ⟨row', hrow', rfl⟩ := Option.map_eq_some_iff.mp h
    exact ⟨row', hrow', rfl⟩
  · rw [Function.update_of_ne hw] at h
    exact ⟨row, h, rfl⟩

theorem table_beat {a : Workers} {now : Time} {row : SnowflakeWorker} {wid' : Nat}
    (h : a.table wid' = some row) (hn : row.insertedBy = some n) :
    ∃ row', (a.beat wid now).table wid' = some row' ∧ row'.insertedBy = some n := by
  simp only [Workers.beat, Workers.setRow]
  by_cases hw : wid' = wid
  · subst hw
    rw [Function.update_self, h]
    exact ⟨_, rfl, hn⟩
  · rw [Function.update_of_ne hw]
    exact ⟨row, h, hn⟩

theorem setRow_none_table {a : Workers} {row : SnowflakeWorker} {wid' : Nat}
    (h : (a.setRow wid none).table wid' = some row) : a.table wid' = some row := by
  simp only [Workers.setRow] at h
  by_cases hw : wid' = wid
  · rw [hw, Function.update_self] at h
    cases h
  · rwa [Function.update_of_ne hw] at h

/-- A row that is still there has the same inserter after a clean-up. -/
theorem cleanStale_table {a : Workers} {d : Time} {row : SnowflakeWorker}
    (h : (a.cleanStale d).table wid = some row) : a.table wid = some row :=
  (Option.filter_eq_some_iff.mp h).1

theorem not_stale {clock heartbeat deadline stale : Int} (young : clock - heartbeat < stale)
    (past : deadline ≤ clock - stale) : ¬ heartbeat < deadline := by
  omega

/-- What a call knows stays true while its row stays its own and the clock goes on. -/
theorem Keeps.mono {s a : Workers} (h : Keeps s n r) (hclock : s.clock ≤ a.clock)
    (hrow : ∀ wid row, r.phase.holds = some wid → s.table wid = some row →
      row.insertedBy = some n → ∃ row', a.table wid = some row' ∧ row'.insertedBy = some n) :
    Keeps a n r := by
  constructor
  · intro wid hw
    obtain ⟨row, hr, hn⟩ := h.row wid hw
    exact hrow wid row hw hr hn
  · intro d hd
    exact Int.le_trans (h.deadline d hd) (Int.sub_le_sub_right hclock _)

theorem Keeps.nothing {a : Workers} (hholds : r.phase.holds = none)
    (hclean : ∀ d, r.phase ≠ .clean d) : Keeps a n r := by
  refine ⟨fun wid hw => ?_, fun d hd => absurd hd (hclean d)⟩
  rw [hholds] at hw
  cases hw

theorem Keeps.step (h : Running Keeps s) (hok : s.keepsBeating l = true)
    (hstep : s.step l = some s') : Running Keeps s' := by
  refine Threads.Holds.step h hstep ?_ ?_ ?_
  · intro r _ hr _
    have hstart : r.phase = .start := of_decide_eq_true hr
    exact .nothing (by rw [hstart]; rfl) (by rw [hstart]; nofun)
  · intro n input r a r' hl hr hA hn
    obtain ⟨hrun, -, hdoes⟩ := init_next hn
    have hK := hA hrun
    refine ⟨trivial, ?_⟩
    generalize hq : r'.phase = q at hdoes
    cases hdoes with
    | goOn holds deadline =>
      refine ⟨fun _ => ⟨?_, ?_⟩, fun k r _ hk hB hc =>
        (hB hc).mono (Int.le_refl _) fun wid row _ hrow hn => ⟨row, hrow, hn⟩⟩
      · intro wid hw
        rw [hq] at hw
        rcases holds with hold | hnone
        · exact hK.row wid (hold ▸ hw)
        · rw [hnone] at hw
          cases hw
      · intro d hd
        exact Int.le_of_eq (deadline d (hq ▸ hd))
    | clean sent at_clean holds after =>
      refine ⟨fun _ => .nothing (hq ▸ holds) (hq ▸ after), fun k r hk hkr hB hc =>
        (hB hc).mono (Int.le_refl _) fun wid row hw hrow hn => ⟨row, ?_, hn⟩⟩
      -- the deadline is older than the heartbeat of every running process
      have hfresh : s.fresh = true := by
        rw [hl, sent] at hok
        simpa only [keepsBeating, phase_of_get hr, at_clean] using hok
      refine Option.filter_eq_some_iff.mpr ⟨hrow, ?_⟩
      simp only [Bool.not_eq_true', decide_eq_false_iff_not]
      exact not_stale (fresh_row hfresh hkr hc hw hrow) (hK.deadline _ at_clean)
    | insert sent succeeds at_insert vacant holds after =>
      refine ⟨fun _ => ⟨?_, fun d hd => absurd (hq ▸ hd) (after d)⟩,
        fun k r hk hkr hB hc => (hB hc).mono (Int.le_refl _) fun wid row hw hrow hn =>
          ⟨row, ?_, hn⟩⟩
      · intro wid hw
        rw [hq] at hw
        rcases holds with hold | hnone
        · cases hold.symm.trans hw
          exact ⟨_, Function.update_self .., rfl⟩
        · rw [hnone] at hw
          cases hw
      · have hne : wid ≠ _ := fun he => by
          rw [he, vacant] at hrow
          cases hrow
        exact (Function.update_of_ne hne ..).trans hrow
    | beat at_beat =>
      refine ⟨fun _ => ⟨?_, ?_⟩, fun k r _ hk hB hc =>
        (hB hc).mono (Int.le_refl _) fun wid row _ hrow hm => table_beat hrow hm⟩
      · intro wid hw
        rw [hq] at hw
        cases hw
        obtain ⟨row, hrow, hm⟩ := hK.row _ (by rw [at_beat]; rfl)
        exact table_beat hrow hm
      · intro d hd
        rw [hq] at hd
        cases hd
    | deregister at_deregister =>
      refine ⟨fun _ => .nothing (hq ▸ rfl) (hq ▸ nofun), fun k r hk hkr hB hc =>
        (hB hc).mono (Int.le_refl _) fun wid row hw hrow hm => ⟨row, ?_, hm⟩⟩
      obtain ⟨own, hown, hn⟩ := hK.row _ (by rw [at_deregister]; rfl)
      have hne : wid ≠ _ := fun he => by
        rw [he, hown] at hrow
        cases hrow
        exact hk (Option.some.inj (hm.symm.trans hn))
      exact (Function.update_of_ne hne ..).trans hrow
  · intro e a hl he
    refine ⟨trivial, ?_⟩
    intro k r hk hB hc
    cases e with
    | tick now =>
      simp only [init] at he
      split at he <;> cases he
      rename_i hle
      exact (hB hc).mono hle fun wid row _ hrow hn => ⟨row, hrow, hn⟩
    | crash p =>
      cases he
      exact (hB (Workers.runs_before_crash hc)).mono (Int.le_refl _) fun wid row _ hrow hn =>
        ⟨row, hrow, hn⟩

/-- With their rows fresh at every clean-up, no two processes hold one worker id,
and the row of every process is there. -/
theorem worker_ids_exclusive (h0 : s₀.threads = [])
    (h : Reaches step (fun s l => s.keepsBeating l = true) s₀ s) :
    (∀ p q wid, s.Live p wid → s.Live q wid → p = q) ∧
      ∀ p wid, s.Live p wid → ∃ row, s.shared.table wid = some row ∧ s.Inserted p row := by
  have hK : Running Keeps s := h.invariant ⟨trivial, fun n r hr => by rw [h0] at hr; cases hr⟩
    fun _ _ _ hK hok hstep => Keeps.step hK hok hstep
  have hrow : ∀ p wid, s.Live p wid →
      ∃ row, s.shared.table wid = some row ∧ s.Inserted p row := by
    rintro p wid ⟨hrun, r, hr, rfl, hw⟩
    obtain ⟨n, hn⟩ := List.mem_iff_getElem?.mp hr
    obtain ⟨row, hrow, hby⟩ := (hK.thread n r hn hrun).row wid hw
    exact ⟨row, hrow, n, r, hby, hn, rfl⟩
  refine ⟨fun p q wid hp hq => ?_, hrow⟩
  obtain ⟨row, ht, n, r, hby, hn, rfl⟩ := hrow p wid hp
  obtain ⟨row', ht', n', r', hby', hn', rfl⟩ := hrow q wid hq
  cases ht.symm.trans ht'
  cases hby.symm.trans hby'
  cases hn.symm.trans hn'
  rfl

theorem worker_ids_exclusive_two :
    ∃ s, Reaches step (fun s l => s.keepsBeating l = true) noWorkers s ∧
      s.Live 1 0 ∧ s.Live 2 1 ∧ ∀ p q wid, s.Live p wid → s.Live q wid → p = q := by
  have hrun : Reaches step (fun s l => s.keepsBeating l = true) noWorkers
      ((run step (fun s l => s.keepsBeating l = true) noWorkers twoServers).get
        (by decide +kernel)) :=
    reaches_run_get _
  exact ⟨_, hrun, by decide +kernel, by decide +kernel, (worker_ids_exclusive rfl hrun).1⟩

/-! ## Whose rows the statements change -/

theorem Owns.mono {s a : Workers} (h : Owns s n r)
    (hrow : ∀ wid row, r.phase.holds = some wid → a.table wid = some row →
      ∃ row', s.table wid = some row' ∧ row'.insertedBy = row.insertedBy) : Owns a n r := by
  intro wid row hw ht
  obtain ⟨row', ht', hsame⟩ := hrow wid row hw ht
  exact hsame ▸ h wid row' hw ht'

theorem Owns.nothing {a : Workers} (hholds : r.phase.holds = none) : Owns a n r := by
  intro wid row hw
  rw [hholds] at hw
  cases hw

theorem Owns.step (h : Running Owns s) (hok : s.insertsApart l = true)
    (hstep : s.step l = some s') : Running Owns s' := by
  refine Threads.Holds.step h hstep ?_ ?_ ?_
  · intro r _ hr _
    have hstart : r.phase = .start := of_decide_eq_true hr
    exact .nothing (by rw [hstart]; rfl)
  · intro n input r a r' hl hr hA hn
    obtain ⟨hrun, -, hdoes⟩ := init_next hn
    have hO := hA hrun
    refine ⟨trivial, ?_⟩
    generalize hq : r'.phase = q at hdoes
    cases hdoes with
    | goOn holds deadline =>
      refine ⟨fun _ wid row hw ht => ?_, fun k r _ hk hB hc =>
        (hB hc).mono fun wid row _ ht => ⟨row, ht, rfl⟩⟩
      rw [hq] at hw
      rcases holds with hold | hnone
      · exact hO wid row (hold ▸ hw) ht
      · rw [hnone] at hw
        cases hw
    | clean sent at_clean holds after =>
      exact ⟨fun _ => .nothing (hq ▸ holds), fun k r hk hkr hB hc =>
        (hB hc).mono fun wid row hw ht => ⟨row, cleanStale_table ht, rfl⟩⟩
    | @insert used wid now q outcome sent succeeds at_insert vacant holds after =>
      refine ⟨?_, fun k r hk hkr hB hc =>
        (hB hc).mono fun wid' row hw ht => ⟨row, ?_, rfl⟩⟩
      · intro _ wid' row hw ht
        rw [hq] at hw
        rcases holds with hold | hnone
        · cases hold.symm.trans hw
          cases (Function.update_self ..).symm.trans ht
          rfl
        · rw [hnone] at hw
          cases hw
      · -- no other call that runs is under the inserted worker id
        have hne : wid' ≠ wid := fun he => by
          subst he
          have hapart := hok
          rw [hl, sent] at hapart
          simp only [insertsApart, phase_of_get hr, at_insert, vacant, Option.isSome_none,
            Bool.or_false, Bool.or_eq_true, beq_iff_eq] at hapart
          have hother := List.all_eq_true.mp (hapart.resolve_left succeeds) r
            (List.mem_of_getElem? hkr)
          have hkrun : s.shared.crashed r.process = false := hc
          rw [hkrun, hw, Bool.false_or, bne_self_eq_false] at hother
          cases hother
        exact (Function.update_of_ne hne ..).symm.trans ht
    | beat at_beat =>
      refine ⟨fun _ wid row hw ht => ?_, fun k r _ hk hB hc =>
        (hB hc).mono fun wid row _ ht => beat_table ht⟩
      rw [hq] at hw
      cases hw
      obtain ⟨row', ht', hsame⟩ := beat_table ht
      exact hsame ▸ hO _ row' (by rw [at_beat]; rfl) ht'
    | deregister at_deregister =>
      refine ⟨fun _ => .nothing (hq ▸ rfl), fun k r hk hkr hB hc =>
        (hB hc).mono fun wid row hw ht => ⟨row, setRow_none_table ht, rfl⟩⟩
  · intro e a hl he
    refine ⟨trivial, ?_⟩
    intro k r hk hB hc
    cases e with
    | tick now =>
      simp only [init] at he
      split at he <;> cases he
      exact (hB hc).mono fun wid row _ ht => ⟨row, ht, rfl⟩
    | crash p =>
      cases he
      exact (hB (Workers.runs_before_crash hc)).mono fun wid row _ ht => ⟨row, ht, rfl⟩

/-- As long as no worker id is inserted that a running process has registered
before, a heartbeat or a deregistration changes a row of its own process only. -/
theorem worker_rows_owned (h0 : s₀.threads = [])
    (h : Reaches step (fun s l => s.insertsApart l = true) s₀ s) :
    ∀ l p row, s.affected l = some (p, row) → s.Inserted p row := by
  have hO : Running Owns s := h.invariant ⟨trivial, fun n r hr => by rw [h0] at hr; cases hr⟩
    fun _ _ _ hO hok hstep => Owns.step hO hok hstep
  intro l p row ha
  cases l with
  | begin | surround => cases ha
  | step n input =>
    cases input with
    | stop => cases ha
    | go outcome =>
      obtain ⟨r, hr, ha⟩ := Option.bind_eq_some_iff.mp ha
      split at ha
      · cases ha
      · rename_i hrun
        have hrun : s.shared.crashed r.process = false := by
          simp only [Bool.or_eq_true, not_or, Bool.not_eq_true] at hrun
          exact hrun.1
        have hown := hO.thread n r hr hrun
        split at ha
        · rename_i hp
          obtain ⟨row, ht, h⟩ := Option.map_eq_some_iff.mp ha
          cases h
          exact ⟨n, r, hown _ row (by rw [hp]; rfl) ht, hr, rfl⟩
        · rename_i hp
          obtain ⟨row, ht, h⟩ := Option.map_eq_some_iff.mp ha
          cases h
          exact ⟨n, r, hown _ row (by rw [hp]; rfl) ht, hr, rfl⟩
        · cases ha

theorem worker_rows_owned_two :
    ∃ s, Reaches step (fun s l => s.insertsApart l = true) noWorkers s ∧
      (s.affected (.step 0 (.go .done))).isSome = true ∧
      ∀ p row, s.affected (.step 0 (.go .done)) = some (p, row) → s.Inserted p row := by
  have hrun : Reaches step (fun s l => s.insertsApart l = true) noWorkers
      ((run step (fun s l => s.insertsApart l = true) noWorkers
        (twoServers ++ [.step 0 .stop])).get (by decide +kernel)) :=
    reaches_run_get _
  exact ⟨_, hrun, by decide +kernel, worker_rows_owned rfl hrun _⟩

theorem worker_row_of_another_deleted :
    ¬ ∀ (s₀ s : Registry), s₀.threads = [] → Reaches step Free s₀ s →
      ∀ l p row, s.affected l = some (p, row) → s.Inserted p row := by
  intro h
  have hrun : Reaches step Free noWorkers
      ((run step Free noWorkers longPause).get (by decide +kernel)) :=
    reaches_run_get _
  have hrow : affected _ (.step 0 (.go .done)) = some (1, ⟨"web", 1, 31000000, 31000000, some 1⟩) :=
    show ((run step Free noWorkers longPause).get (by decide +kernel)).affected _ = _ by
      decide +kernel
  obtain ⟨n, r, hn, hr, hp⟩ := h _ _ rfl hrun _ _ _ hrow
  cases hn
  have htwo : ((run step Free noWorkers longPause).get (by decide +kernel)).threads[1]?.map
      (·.process) = some 2 := by
    decide +kernel
  rw [hr, Option.map_some, hp] at htwo
  cases htwo

end Registry

end Webshelf
