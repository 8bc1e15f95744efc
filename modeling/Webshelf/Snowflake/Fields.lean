import Webshelf.Snowflake.Generator

/-!
# Do the fields of an id stay apart?

An id is made of a reading of the call itself, the generator's worker id and a
drawn number. Only the draw of the same millisecond checks its number; the
winner uses what it draws after its reset, and any number of other calls may
have drawn in between. A number of 4096 or more lands in the worker's bits.
-/

namespace Webshelf

open Runs

/-- The reading a call works with. -/
def Generate.currentTs : Generate → Option Int64
  | .claim ts | .exhausted ts | .compareExchange _ ts | .reset ts | .first ts | .returned ts _ =>
    some ts
  | .load | .clock _ | .backwards _ => none

namespace Generators

/-- The clock stays within the 41 bits of an id. -/
def OnTime (_ : Generators) : Move → Prop
  | .tick now => Representable now
  | _ => True

instance (s : Generators) : (m : Move) → Decidable (s.OnTime m)
  | .tick now => inferInstanceAs (Decidable (Representable now))
  | .begin | .step _ => .isTrue trivial

/-- The winner's number fits: it finds at most 4095 draws since its reset. -/
def FirstFits (s : Generators) : Generate → Prop
  | .first _ => s.generator.sequence.toUInt64 ≤ MAX_SEQUENCE
  | _ => True

def Unflooded (s : Generators) : Move → Prop
  | .step n => ∀ a ∈ s.pc n, s.FirstFits a
  | _ => True

def OnTimeUnflooded (s : Generators) (m : Move) : Prop :=
  s.OnTime m ∧ s.Unflooded m

instance (s : Generators) : (a : Generate) → Decidable (s.FirstFits a)
  | .first _ => inferInstanceAs (Decidable (s.generator.sequence.toUInt64 ≤ MAX_SEQUENCE))
  | .load | .clock _ | .backwards _ | .claim _ | .exhausted _ | .compareExchange _ _ | .reset _
  | .returned _ _ => .isTrue trivial

instance (s : Generators) : (m : Move) → Decidable (s.Unflooded m)
  | .step n => inferInstanceAs (Decidable (∀ a ∈ s.pc n, s.FirstFits a))
  | .begin | .tick _ => .isTrue trivial

instance (s : Generators) (m : Move) : Decidable (s.OnTimeUnflooded m) :=
  inferInstanceAs (Decidable (_ ∧ _))

/-- `s` is reached from a new generator of the worker. -/
def From (ok : Generators → Move → Prop) (workerId : UInt64) (s : Generators) : Prop :=
  ∃ g clock, SnowflakeGenerator.new workerId = some g ∧ Representable clock ∧
    Reaches Generators.step ok ⟨g, clock, []⟩ s

/-- Every id decodes to a reading of its own call, the worker, and a number below 4096. -/
def Confined (workerId : UInt64) (s : Generators) : Prop :=
  ∀ n c id, s.calls[n]? = some c → s.result n = some id →
    ∃ ts ∈ c.readings, ∃ seq ≤ MAX_SEQUENCE,
      decodeId id = (ts - CUSTOM_EPOCH.toInt64, workerId.toInt64, seq.toInt64)

/-- What a call holds: it works with a reading of its own, and its number fits. -/
structure Sourced (c : GenerateCall) : Prop where
  current : ∀ ts ∈ c.pc.currentTs, ts ∈ c.readings
  onTime : ∀ ts ∈ c.readings, Representable ts
  fits : ∀ ts seq, c.pc = .returned ts seq → seq ≤ MAX_SEQUENCE

variable {s s' : Generators} {m : Move} {workerId : UInt64}

theorem From.next {ok : Generators → Move → Prop} (h : From ok workerId s) (hok : ok s m)
    (hstep : s.step m = some s') : From ok workerId s' := by
  obtain ⟨g, clock, hnew, hclock, hr⟩ := h
  exact ⟨g, clock, hnew, hclock, hr.next hok hstep⟩

theorem From.mono {ok ok' : Generators → Move → Prop} (h : From ok workerId s)
    (hok : ∀ a l, ok a l → ok' a l) : From ok' workerId s := by
  obtain ⟨g, clock, hnew, hclock, hr⟩ := h
  exact ⟨g, clock, hnew, hclock, hr.mono hok⟩

theorem From.worker {ok : Generators → Move → Prop} (h : From ok workerId s) :
    s.generator.workerId = workerId := by
  obtain ⟨g, clock, hnew, -, hr⟩ := h
  refine hr.invariant ?_ fun a l b ih _ hstep => (step_workerId hstep).trans ih
  simp only [SnowflakeGenerator.new] at hnew
  split at hnew <;> cases hnew
  rfl

theorem call_of_result {n : Nat} {id : Int64} (h : s.result n = some id) :
    ∃ c, s.calls[n]? = some c := by
  obtain ⟨ts, seq, hpc, -⟩ := result_eq_some.mp h
  obtain ⟨c, hc, -⟩ := Option.map_eq_some_iff.mp hpc
  exact ⟨c, hc⟩

/-- A call's timestamp is a reading it has just made or the one it had. -/
theorem generate_currentTs {g g' : SnowflakeGenerator} {now ts : Int64} {a b : Generate}
    (h : g.generate now a = some (g', b)) (hts : ts ∈ b.currentTs) :
    ts ∈ a.currentTs ∨ a.readsClock = true ∧ ts = now := by
  cases a with
  | returned => cases h
  | clock lastTs | backwards lastTs =>
    simp only [SnowflakeGenerator.generate, Option.some.injEq, Prod.mk.injEq] at h
    obtain ⟨-, rfl⟩ := h
    right
    refine ⟨rfl, ?_⟩
    (repeat' split at hts) <;> cases hts <;> rfl
  | exhausted currentTs | claim currentTs =>
    simp only [SnowflakeGenerator.generate, Option.some.injEq, Prod.mk.injEq] at h
    obtain ⟨-, rfl⟩ := h
    left
    split at hts <;> cases hts <;> rfl
  | compareExchange lastTs currentTs =>
    simp only [SnowflakeGenerator.generate] at h
    left
    split at h <;> cases h <;> cases hts
    rfl
  | load | reset | first =>
    cases h
    cases hts <;> exact .inl rfl

theorem generate_returned {g g' : SnowflakeGenerator} {now ts : Int64} {a : Generate} {seq : UInt64}
    (h : g.generate now a = some (g', .returned ts seq)) :
    seq ≤ MAX_SEQUENCE ∨ a = .first ts ∧ seq = g.sequence.toUInt64 := by
  cases a with
  | first =>
    cases h
    exact .inr ⟨rfl, rfl⟩
  | claim =>
    simp only [SnowflakeGenerator.generate, Option.some.injEq, Prod.mk.injEq] at h
    obtain ⟨-, h⟩ := h
    split at h <;> cases h
    rename_i hlt
    exact .inl (UInt64.le_of_lt hlt)
  | clock | backwards | exhausted | compareExchange =>
    simp only [SnowflakeGenerator.generate] at h
    (repeat' split at h) <;> cases h
  | _ => cases h

theorem Sourced.begin : Sourced {} :=
  ⟨nofun, nofun, nofun⟩

theorem Sourced.step {c : GenerateCall} {g g' : SnowflakeGenerator} {now : Int64} {b : Generate}
    (hc : Sourced c) (hnow : Representable now) (hg : g.generate now c.pc = some (g', b))
    (hfirst : ∀ ts, c.pc = .first ts → g.sequence.toUInt64 ≤ MAX_SEQUENCE) :
    Sourced ⟨b, if c.pc.readsClock then now :: c.readings else c.readings⟩ := by
  constructor
  · intro ts hts
    obtain hts | ⟨hreads, rfl⟩ := generate_currentTs hg hts
    · have hmem := hc.current ts hts
      dsimp only
      split
      · exact List.mem_cons_of_mem _ hmem
      · exact hmem
    · rw [hreads]
      exact List.mem_cons_self
  · intro ts hts
    dsimp only at hts
    split at hts
    · rcases List.mem_cons.mp hts with rfl | hts
      · exact hnow
      · exact hc.onTime ts hts
    · exact hc.onTime ts hts
  · intro ts seq hb
    dsimp only at hb
    subst hb
    obtain hle | ⟨hpc, rfl⟩ := generate_returned hg
    · exact hle
    · exact hfirst ts hpc

theorem sourced_step (hclock : Representable s.clock) (hs : ∀ c ∈ s.calls, Sourced c)
    (hok : s.OnTimeUnflooded m) (h : s.step m = some s') :
    Representable s'.clock ∧ ∀ c ∈ s'.calls, Sourced c := by
  obtain ⟨rfl, rfl⟩ | ⟨now, rfl, rfl⟩ | ⟨n, c, g, b, rfl, hc, hg, rfl⟩ := step_cases h
  · refine ⟨hclock, ?_⟩
    intro c hc
    rcases List.mem_append.mp hc with hc | hc
    · exact hs c hc
    · rw [List.mem_singleton.mp hc]
      exact .begin
  · exact ⟨hok.1, hs⟩
  · refine ⟨hclock, ?_⟩
    intro d hd
    rcases List.mem_or_eq_of_mem_set hd with hd | rfl
    · exact hs d hd
    · refine (hs c (List.mem_of_getElem? hc)).step hclock hg ?_
      intro ts hpc
      exact hok.2 (.first ts) (by rw [pc, hc, Option.map_some, hpc]; rfl)

theorem From.sourced (h : From OnTimeUnflooded workerId s) : ∀ c ∈ s.calls, Sourced c := by
  obtain ⟨g, clock, -, hclock, hr⟩ := h
  have hs : Representable s.clock ∧ ∀ c ∈ s.calls, Sourced c :=
    hr.invariant ⟨hclock, nofun⟩ fun a l b ih hok hstep => sourced_step ih.1 ih.2 hok hstep
  exact hs.2

theorem From.confined (h : From OnTimeUnflooded workerId s) :
    s.Confined workerId := by
  intro n c id hc hid
  have hc' := h.sourced c (List.mem_of_getElem? hc)
  obtain ⟨ts, seq, hpc, rfl⟩ := result_eq_some.mp hid
  have hret : c.pc = .returned ts seq := by
    rw [pc, hc] at hpc
    exact Option.some.inj hpc
  have hts : ts ∈ c.readings := hc'.current ts (by rw [hret]; rfl)
  have hseq := hc'.fits ts seq hret
  refine ⟨ts, hts, seq, hseq, ?_⟩
  rw [← h.worker]
  exact decodeId_composeId (hc'.onTime ts hts) s.generator.inRange hseq

variable {workerId' : UInt64}

theorem Confined.disjoint (h : s.Confined workerId) (h' : s'.Confined workerId')
    (hne : workerId ≠ workerId') (n k : Nat) (id : Int64) (hid : s.result n = some id) :
    s'.result k ≠ some id := by
  intro hid'
  obtain ⟨c, hc⟩ := call_of_result hid
  obtain ⟨c', hc'⟩ := call_of_result hid'
  obtain ⟨ts, -, seq, -, hd⟩ := h n c id hc hid
  obtain ⟨ts', -, seq', -, hd'⟩ := h' k c' id hc' hid'
  rw [hd] at hd'
  have hw : workerId.toInt64 = workerId'.toInt64 := congrArg (fun d => d.2.1) hd'
  exact hne (congrArg Int64.toUInt64 hw)

theorem ids_confined (h : From OnTimeUnflooded workerId s)
    (h' : From OnTimeUnflooded workerId' s') :
    s.Confined workerId ∧
      (workerId ≠ workerId' → ∀ n k id, s.result n = some id → s'.result k ≠ some id) :=
  ⟨h.confined, fun hne n k id hid => h.confined.disjoint h'.confined hne n k id hid⟩

/-- One call, which wins the millisecond. -/
def wins : List Move := [.begin, .step 0, .step 0, .step 0, .step 0, .step 0]

def wonBy0 : Generators :=
  (run Generators.step OnTimeUnflooded (afterEpoch 0 worker_0) wins).get (by decide)

def wonBy1 : Generators :=
  (run Generators.step OnTimeUnflooded (afterEpoch 1 worker_1) wins).get (by decide)

theorem wonBy0_from : From OnTimeUnflooded 0 wonBy0 :=
  ⟨_, 1704067200001, rfl, by decide, reaches_run_get _⟩

theorem wonBy1_from : From OnTimeUnflooded 1 wonBy1 :=
  ⟨_, 1704067200001, rfl, by decide, reaches_run_get _⟩

theorem ids_confined_won : wonBy0.Confined 0 ∧ wonBy0.result 0 = some 4194304 ∧
    wonBy1.result 0 ≠ some 4194304 := by
  obtain ⟨hc, hne⟩ := ids_confined wonBy0_from wonBy1_from
  have hid : wonBy0.result 0 = some 4194304 := by decide
  exact ⟨hc, hid, hne (by decide) 0 0 _ hid⟩

theorem onTime_begin : s.OnTime .begin := trivial

theorem onTime_step {n : Nat} : s.OnTime (.step n) := trivial

/-- Call 0 has won `ts` and reset the sequence; it is about to draw. -/
structure Resetting (s : Generators) (ts : Int64) : Prop where
  clock : s.clock = ts
  last : s.generator.lastTimestamp = ts
  first : s.pc 0 = some (.first ts)

/-- Another call can draw before call 0 does. -/
theorem Resetting.draw {ts : Int64} (h : s.Resetting ts) :
    ∃ s', Reaches Generators.step OnTime s s' ∧ s'.Resetting ts ∧
      s'.generator.sequence = s.generator.sequence + 1 := by
  obtain ⟨s₁, h₁, hc₁, hg₁, hnone, hp₁⟩ := begin_pc (s := s)
  generalize hn : s.calls.length = n at hnone hp₁
  have hne : (0 : Nat) ≠ n := by
    rintro rfl
    rw [h.first] at hnone
    cases hnone
  -- the call loads the millisecond, reads the same one, and draws
  have hload : s₁.pc n = some .load := by rw [hp₁, Function.update_self]
  obtain ⟨s₂, h₂, hc₂, hg₂, hp₂⟩ := step_of_pc hload rfl
  have hread : s₂.pc n = some (.clock s₁.generator.lastTimestamp) := by
    rw [hp₂, Function.update_self]
  obtain ⟨s₃, h₃, hc₃, hg₃, hp₃⟩ := step_of_pc hread rfl
  have hclaim : s₃.pc n = some (.claim ts) := by
    rw [hp₃, Function.update_self, hc₂, hc₁, h.clock, hg₁, h.last,
      if_neg Int64.lt_irrefl, if_pos rfl]
  obtain ⟨s₄, h₄, hc₄, hg₄, hp₄⟩ := step_of_pc hclaim rfl
  have hgen : s₃.generator = s.generator := by rw [hg₃, hg₂, hg₁]
  refine ⟨s₄, ?_, ⟨?_, ?_, ?_⟩, ?_⟩
  · have hfirst := (Reaches.single onTime_begin h₁).next onTime_step h₂
    exact (hfirst.next onTime_step h₃).next onTime_step h₄
  · rw [hc₄, hc₃, hc₂, hc₁, h.clock]
  · rw [hg₄, hgen]
    exact h.last
  · rw [hp₄, Function.update_of_ne hne, hp₃, Function.update_of_ne hne, hp₂,
      Function.update_of_ne hne, hp₁, Function.update_of_ne hne, h.first]
  · rw [hg₄, hgen]

/-- Any number of other calls can. -/
theorem Resetting.flood {ts : Int64} (h : s.Resetting ts) (k : Nat) :
    ∃ s', Reaches Generators.step OnTime s s' ∧ s'.Resetting ts ∧
      s'.generator.sequence = s.generator.sequence + Int64.ofNat k := by
  induction k with
  | zero => exact ⟨s, .start, h, (Int64.add_zero _).symm⟩
  | succ k ih =>
    obtain ⟨s₁, hr, h₁, hseq⟩ := ih
    obtain ⟨s₂, hr', h₂, hseq'⟩ := h₁.draw
    refine ⟨s₂, hr.trans hr', h₂, ?_⟩
    rw [hseq', hseq, Int64.add_assoc, Int64.ofNat_add]
    rfl

def reset0 : Generators :=
  (run Generators.step OnTime (afterEpoch 0 worker_0)
    [.begin, .step 0, .step 0, .step 0, .step 0]).get (by decide)

/-- 4096 calls draw between the winner's reset and its draw: the id is the first
one of the next worker. -/
theorem id_of_next_worker : ∃ s s', From OnTime 0 s ∧ From OnTime 1 s' ∧ ¬ s.Confined 0 ∧
    s.result 0 = some 4198400 ∧ s'.result 0 = some 4198400 := by
  have hreset : reset0.Resetting 1704067200001 := ⟨by decide, by decide, by decide⟩
  obtain ⟨s, hr, hs, hseq⟩ := hreset.flood 4096
  obtain ⟨s', hstep, -, hg, hpc⟩ := step_of_pc hs.first rfl
  have hfrom : From OnTime 0 s :=
    ⟨_, 1704067200001, rfl, by decide, (reaches_run_get _).trans hr⟩
  have hfrom' : From OnTime 0 s' := hfrom.next onTime_step hstep
  have hid : s'.result 0 = some 4198400 := by
    refine result_eq_some.mpr ⟨1704067200001, 4096, ?_, ?_⟩
    · rw [hpc, Function.update_self, hseq]
      rfl
    · rw [hfrom'.worker]
      decide
  refine ⟨s', wonBy1, hfrom', wonBy1_from.mono fun _ _ hok => hok.1, fun hbad => ?_, hid, by decide⟩
  obtain ⟨c, hc⟩ := call_of_result hid
  obtain ⟨ts, -, seq, -, hd⟩ := hbad 0 c _ hc hid
  have hworker : (decodeId 4198400).2.1 = 0 := congrArg (fun d => d.2.1) hd
  exact absurd hworker (by decide)

end Generators

end Webshelf
