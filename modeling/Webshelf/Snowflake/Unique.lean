import Webshelf.Snowflake.Generator

/-!
# Are ids unique?

`last_timestamp` and `sequence` are two atomics. The winner of a millisecond
moves the first and then resets the second, and other calls run in between:
one may still draw from the old sequence, or draw with a timestamp that is not
the generator's any more. Ids are unique in the runs where every number that
goes into an id is drawn in its own millisecond, after the reset.
-/

namespace Webshelf

open Runs

/-- Not an id of another millisecond with the low 42 bits of `ts`. -/
def Generate.Apart (ts : Int64) : Generate → Prop
  | .returned ts' _ => lowBits ts' = lowBits ts → ts' = ts
  | _ => True

instance (ts : Int64) : (a : Generate) → Decidable (a.Apart ts)
  | .returned ts' _ => inferInstanceAs (Decidable (lowBits ts' = lowBits ts → ts' = ts))
  | .load | .clock _ | .backwards _ | .claim _ | .exhausted _ | .compareExchange _ _ | .reset _
  | .first _ => .isTrue trivial

namespace Generators

/-- `ts` is the generator's millisecond, and its winner has stored 0. -/
def Current (s : Generators) (ts : Int64) : Prop :=
  s.generator.lastTimestamp = ts ∧ ∀ c ∈ s.calls, c.pc ≠ .reset ts

def Fresh (s : Generators) (ts : Int64) : Prop :=
  ∀ c ∈ s.calls, c.pc.Apart ts

/-- A number that goes into an id is drawn in its own millisecond, after the
reset; the reset comes in its own millisecond as well; the winner's number
fits; and no 2^64 draws come between two resets. -/
def StepsInTurn (s : Generators) : Generate → Prop
  | .claim ts => s.generator.sequence.toUInt64.toNat + 1 < UInt64.size ∧
      (s.generator.sequence.toUInt64 < MAX_SEQUENCE → s.Current ts ∧ s.Fresh ts)
  | .reset ts => s.generator.lastTimestamp = ts
  | .first ts => s.generator.sequence.toUInt64 ≤ MAX_SEQUENCE ∧ s.Current ts ∧ s.Fresh ts
  | _ => True

def InTurn (s : Generators) : Move → Prop
  | .step n => ∀ a ∈ s.pc n, s.StepsInTurn a
  | _ => True

instance (s : Generators) (ts : Int64) : Decidable (s.Current ts) :=
  inferInstanceAs (Decidable (_ ∧ _))

instance (s : Generators) (ts : Int64) : Decidable (s.Fresh ts) :=
  inferInstanceAs (Decidable (∀ c ∈ s.calls, c.pc.Apart ts))

instance (s : Generators) : (a : Generate) → Decidable (s.StepsInTurn a)
  | .claim _ => inferInstanceAs (Decidable (_ ∧ (_ → _ ∧ _)))
  | .reset ts => inferInstanceAs (Decidable (s.generator.lastTimestamp = ts))
  | .first _ => inferInstanceAs (Decidable (_ ∧ _ ∧ _))
  | .load | .clock _ | .backwards _ | .exhausted _ | .compareExchange _ _ | .returned _ _ =>
    .isTrue trivial

instance (s : Generators) : (m : Move) → Decidable (s.InTurn m)
  | .step n => inferInstanceAs (Decidable (∀ a ∈ s.pc n, s.StepsInTurn a))
  | .begin | .tick _ => .isTrue trivial

/-- No two calls have returned the same id. -/
def Distinct (s : Generators) : Prop :=
  ∀ n m id, s.result n = some id → s.result m = some id → n = m

/-- What the calls hold while every number is drawn in turn. -/
structure Ordered (s : Generators) : Prop where
  /-- A call only tries to move the generator forward. -/
  forward : ∀ n lastTs ts, s.pc n = some (.compareExchange lastTs ts) → lastTs < ts
  past : ∀ n ts seq, s.pc n = some (.returned ts seq) → ts ≤ s.generator.lastTimestamp
  fits : ∀ n ts seq, s.pc n = some (.returned ts seq) → seq ≤ MAX_SEQUENCE
  /-- The numbers drawn in the generator's millisecond lie below the sequence,
  and there are none before its reset. -/
  drawn : ∀ n seq, s.pc n = some (.returned s.generator.lastTimestamp seq) →
    seq.toNat < s.generator.sequence.toUInt64.toNat ∧
      ∀ m, s.pc m ≠ some (.reset s.generator.lastTimestamp)
  distinct : ∀ n m ts ts' seq, s.pc n = some (.returned ts seq) →
    s.pc m = some (.returned ts' seq) → lowBits ts = lowBits ts' → n = m

variable {s s' : Generators} {m : Move} {n : Nat} {ts : Int64}

theorem mem_of_pc {a : Generate} (h : s.pc n = some a) : ∃ c ∈ s.calls, c.pc = a := by
  obtain ⟨c, hc, rfl⟩ := Option.map_eq_some_iff.mp h
  exact ⟨c, List.mem_of_getElem? hc, rfl⟩

theorem Current.not_reset (h : s.Current ts) (m : Nat) : s.pc m ≠ some (.reset ts) := by
  intro hm
  obtain ⟨c, hc, hpc⟩ := mem_of_pc hm
  exact h.2 c hc hpc

theorem Fresh.eq_of_emod {ts' : Int64} {seq : UInt64} (h : s.Fresh ts)
    (hn : s.pc n = some (.returned ts' seq)) (hmod : lowBits ts' = lowBits ts) :
    ts' = ts := by
  obtain ⟨c, hc, hpc⟩ := mem_of_pc hn
  have hapart := h c hc
  rw [hpc] at hapart
  exact hapart hmod

/-- What a call may go on to without returning an id. -/
def GoesOn : Generate → Prop
  | .compareExchange lastTs ts => lastTs < ts
  | .returned _ _ => False
  | _ => True

/-- The same, without having won a millisecond. -/
def GoesOnAlone : Generate → Prop
  | .reset _ => False
  | a => GoesOn a

theorem GoesOnAlone.goesOn {a : Generate} (h : GoesOnAlone a) : GoesOn a := by
  cases a with
  | reset => exact h.elim
  | _ => exact h

/-- As long as no id is returned, only the generator's millisecond matters. -/
theorem Ordered.of_goesOn (ho : Ordered s)
    (hpc : ∀ n a, s'.pc n = some a → s.pc n = some a ∨ GoesOn a)
    (hlast : s.generator.lastTimestamp ≤ s'.generator.lastTimestamp)
    (hdrawn : ∀ n seq, s.pc n = some (.returned s'.generator.lastTimestamp seq) →
      seq.toNat < s'.generator.sequence.toUInt64.toNat ∧
        ∀ m, s'.pc m ≠ some (.reset s'.generator.lastTimestamp)) : Ordered s' := by
  have hold : ∀ n ts seq, s'.pc n = some (.returned ts seq) → s.pc n = some (.returned ts seq) :=
    fun n ts seq h => (hpc n _ h).resolve_right id
  constructor
  · intro n lastTs ts h
    rcases hpc n _ h with h | h
    · exact ho.forward n lastTs ts h
    · exact h
  · intro n ts seq h
    have hpast := ho.past n ts seq (hold n ts seq h)
    exact Int64.le_trans hpast hlast
  · intro n ts seq h
    exact ho.fits n ts seq (hold n ts seq h)
  · intro n seq h
    exact hdrawn n seq (hold n _ seq h)
  · intro n m ts ts' seq hn hm hmod
    exact ho.distinct n m ts ts' seq (hold n ts seq hn) (hold m ts' seq hm) hmod

/-- The sequence may go up, and a call that neither won nor returns may go on. -/
theorem Ordered.keep (ho : Ordered s)
    (hlast : s'.generator.lastTimestamp = s.generator.lastTimestamp)
    (hseq : s.generator.sequence.toUInt64.toNat ≤ s'.generator.sequence.toUInt64.toNat)
    (hpc : ∀ n a, s'.pc n = some a → s.pc n = some a ∨ GoesOnAlone a) : Ordered s' := by
  refine ho.of_goesOn (fun n a h => (hpc n a h).imp_right GoesOnAlone.goesOn)
    (by rw [hlast]; exact Int64.le_refl _) ?_
  intro n seq h
  rw [hlast] at h ⊢
  obtain ⟨hlt, hno⟩ := ho.drawn n seq h
  refine ⟨by omega, ?_⟩
  intro m hm
  rcases hpc m _ hm with hm | hm
  · exact hno m hm
  · exact hm

/-- A new millisecond: the ids are all of earlier ones. -/
theorem Ordered.advance (ho : Ordered s) {lastTs : Int64}
    (hn : s.pc n = some (.compareExchange lastTs ts)) (hcas : s.generator.lastTimestamp = lastTs)
    (hlast : s'.generator.lastTimestamp = ts)
    (hpc : s'.pc = Function.update s.pc n (some (.reset ts))) : Ordered s' := by
  have hlt : s.generator.lastTimestamp < ts := by
    rw [hcas]
    exact ho.forward n lastTs ts hn
  refine ho.of_goesOn ?_ (by rw [hlast]; exact Int64.le_of_lt hlt) ?_
  · intro m a h
    obtain ⟨-, rfl⟩ | ⟨-, h⟩ := pc_of_update hpc h
    · exact .inr trivial
    · exact .inl h
  · intro m seq h
    rw [hlast] at h
    have hpast := ho.past m ts seq h
    exact absurd (Int64.lt_of_le_of_lt hpast hlt) Int64.lt_irrefl

/-- Before its reset no number of the millisecond has been drawn. -/
theorem Ordered.reset (ho : Ordered s) (hn : s.pc n = some (.reset ts))
    (hcur : s.generator.lastTimestamp = ts)
    (hlast : s'.generator.lastTimestamp = s.generator.lastTimestamp)
    (hpc : s'.pc = Function.update s.pc n (some (.first ts))) : Ordered s' := by
  refine ho.of_goesOn ?_ (by rw [hlast]; exact Int64.le_refl _) ?_
  · intro m a h
    obtain ⟨-, rfl⟩ | ⟨-, h⟩ := pc_of_update hpc h
    · exact .inr trivial
    · exact .inl h
  · intro m seq h
    rw [hlast] at h
    obtain ⟨-, hno⟩ := ho.drawn m seq h
    exact absurd (hcur ▸ hn) (hno n)

/-- A number drawn in turn is above those already drawn in its millisecond. -/
theorem Ordered.draw (ho : Ordered s) (hcur : s.Current ts) (hfresh : s.Fresh ts)
    (hmax : s.generator.sequence.toUInt64 ≤ MAX_SEQUENCE)
    (hlast : s'.generator.lastTimestamp = s.generator.lastTimestamp)
    (hseq : s'.generator.sequence.toUInt64.toNat = s.generator.sequence.toUInt64.toNat + 1)
    (hpc : s'.pc = Function.update s.pc n
      (some (.returned ts s.generator.sequence.toUInt64))) : Ordered s' := by
  have habove : ∀ m ts', s.pc m = some (.returned ts' s.generator.sequence.toUInt64) →
      lowBits ts' ≠ lowBits ts := by
    intro m ts' hm hmod
    have hts := hfresh.eq_of_emod hm hmod
    rw [hts, ← hcur.1] at hm
    exact absurd (ho.drawn m _ hm).1 (Nat.lt_irrefl _)
  constructor
  · intro m lastTs ts' h
    obtain ⟨-, h⟩ | ⟨-, h⟩ := pc_of_update hpc h
    · cases h
    · exact ho.forward m lastTs ts' h
  · intro m ts' seq h
    rw [hlast]
    obtain ⟨-, h⟩ | ⟨-, h⟩ := pc_of_update hpc h
    · cases h
      rw [hcur.1]
      exact Int64.le_refl _
    · exact ho.past m ts' seq h
  · intro m ts' seq h
    obtain ⟨-, h⟩ | ⟨-, h⟩ := pc_of_update hpc h
    · cases h
      exact hmax
    · exact ho.fits m ts' seq h
  · intro m seq h
    rw [hlast] at h ⊢
    constructor
    · obtain ⟨-, h⟩ | ⟨-, h⟩ := pc_of_update hpc h
      · cases h
        omega
      · have hlt := (ho.drawn m seq h).1
        omega
    · intro k hk
      obtain ⟨-, hk⟩ | ⟨-, hk⟩ := pc_of_update hpc hk
      · cases hk
      · rw [hcur.1] at hk
        exact hcur.not_reset k hk
  · intro m m' t t' seq h h' hmod
    obtain ⟨rfl, h⟩ | ⟨-, h⟩ := pc_of_update hpc h <;>
      obtain ⟨rfl, h'⟩ | ⟨-, h'⟩ := pc_of_update hpc h'
    · rfl
    · cases h
      exact absurd hmod.symm (habove m' t' h')
    · cases h'
      exact absurd hmod (habove m t h)
    · exact ho.distinct m m' t t' seq h h' hmod

/-- A call that goes on alone: the generator is as before. -/
theorem Ordered.goOn (ho : Ordered s) {b : Generate} (hg : s'.generator = s.generator)
    (hpc : s'.pc = Function.update s.pc n (some b)) (hb : GoesOnAlone b) :
    Ordered s' := by
  refine ho.keep (by rw [hg]) (by rw [hg]) ?_
  intro m a h
  obtain ⟨-, rfl⟩ | ⟨-, h⟩ := pc_of_update hpc h
  · exact .inr hb
  · exact .inl h

theorem toNat_succ {seq : Int64} (h : seq.toUInt64.toNat + 1 < UInt64.size) :
    (seq + 1).toUInt64.toNat = seq.toUInt64.toNat + 1 := by
  have hadd : (seq + 1).toUInt64 = seq.toUInt64 + 1 := rfl
  rw [hadd, UInt64.toNat_add]
  exact Nat.mod_eq_of_lt h

theorem Ordered.step (ho : Ordered s) (hok : s.InTurn m) (h : s.step m = some s') :
    Ordered s' := by
  obtain ⟨hg, hpc⟩ | ⟨n, a, b, rfl, ha, hgen, hpc⟩ := step_pc h
  · refine ho.keep (by rw [hg]) (by rw [hg]) ?_
    intro n a hn
    rcases hpc n a hn with hn | rfl
    · exact .inl hn
    · exact .inr trivial
  have hok : s.StepsInTurn a := hok a ha
  cases a with
  | load =>
    simp only [SnowflakeGenerator.generate, Option.some.injEq, Prod.mk.injEq] at hgen
    obtain ⟨hg, rfl⟩ := hgen
    exact ho.goOn hg.symm hpc trivial
  | clock lastTs =>
    simp only [SnowflakeGenerator.generate, Option.some.injEq, Prod.mk.injEq] at hgen
    obtain ⟨hg, rfl⟩ := hgen
    refine ho.goOn hg.symm hpc ?_
    split
    · exact trivial
    · split
      · exact trivial
      · rename_i hge hne
        have hlt : lastTs < s.clock :=
          Int64.lt_of_le_of_ne (Int64.not_lt.mp hge) (Ne.symm hne)
        exact hlt
  | backwards lastTs | exhausted ts =>
    simp only [SnowflakeGenerator.generate, Option.some.injEq, Prod.mk.injEq] at hgen
    obtain ⟨hg, rfl⟩ := hgen
    refine ho.goOn hg.symm hpc ?_
    split <;> exact trivial
  | claim ts =>
    obtain ⟨hwrap, hturn⟩ := hok
    simp only [SnowflakeGenerator.generate, Option.some.injEq, Prod.mk.injEq] at hgen
    obtain ⟨hg, rfl⟩ := hgen
    have hseq : s'.generator.sequence.toUInt64.toNat =
        s.generator.sequence.toUInt64.toNat + 1 := by
      rw [← hg]
      exact toNat_succ hwrap
    have hlast : s'.generator.lastTimestamp = s.generator.lastTimestamp := by rw [← hg]
    split at hpc
    · rename_i hmax
      obtain ⟨hcur, hfresh⟩ := hturn hmax
      exact ho.draw hcur hfresh (UInt64.le_of_lt hmax) hlast hseq hpc
    · refine ho.keep hlast (by omega) ?_
      intro m a hm
      obtain ⟨-, rfl⟩ | ⟨-, hm⟩ := pc_of_update hpc hm
      · exact .inr trivial
      · exact .inl hm
  | compareExchange lastTs ts =>
    simp only [SnowflakeGenerator.generate] at hgen
    split at hgen
    · rename_i hcas
      simp only [Option.some.injEq, Prod.mk.injEq] at hgen
      obtain ⟨hg, rfl⟩ := hgen
      exact ho.advance ha hcas (by rw [← hg]) hpc
    · simp only [Option.some.injEq, Prod.mk.injEq] at hgen
      obtain ⟨hg, rfl⟩ := hgen
      exact ho.goOn hg.symm hpc trivial
  | reset ts =>
    simp only [SnowflakeGenerator.generate, Option.some.injEq, Prod.mk.injEq] at hgen
    obtain ⟨hg, rfl⟩ := hgen
    exact ho.reset ha hok (by rw [← hg]) hpc
  | first ts =>
    obtain ⟨hmax, hcur, hfresh⟩ := hok
    simp only [SnowflakeGenerator.generate, Option.some.injEq, Prod.mk.injEq] at hgen
    obtain ⟨hg, rfl⟩ := hgen
    have hlt := lt_of_le_MAX_SEQUENCE hmax
    refine ho.draw hcur hfresh hmax (by rw [← hg]) ?_ hpc
    rw [← hg]
    exact toNat_succ (Nat.lt_of_le_of_lt hlt (by decide))
  | returned ts seq => cases hgen

theorem Ordered.start {g : SnowflakeGenerator} {clock : Int64} : Ordered ⟨g, clock, []⟩ :=
  ⟨nofun, nofun, nofun, nofun, nofun⟩

/-- Equal ids have the same number and the same low bits of the timestamp. -/
theorem Ordered.ids_distinct (ho : Ordered s) : s.Distinct := by
  intro n m id hn hm
  obtain ⟨ts, seq, hpn, hid⟩ := result_eq_some.mp hn
  obtain ⟨ts', seq', hpm, hid'⟩ := result_eq_some.mp hm
  have hseq := ho.fits n ts seq hpn
  have hseq' := ho.fits m ts' seq' hpm
  obtain ⟨hmod, rfl⟩ := composeId_inj s.generator.inRange hseq hseq' (hid ▸ hid')
  exact ho.distinct n m ts ts' seq hpn hpm hmod

variable {g : SnowflakeGenerator} {clock : Int64}

theorem ids_unique (h : Reaches Generators.step InTurn ⟨g, clock, []⟩ s) : s.Distinct := by
  have ho : Ordered s := h.invariant .start fun _ _ _ ho hok hstep => ho.step hok hstep
  exact ho.ids_distinct

/-- The first call wins and draws 0; the second finds its millisecond and draws 1. -/
def oneAfterTheOther : List Move :=
  [.begin, .begin, .step 0, .step 0, .step 0, .step 0, .step 0, .step 1, .step 1, .step 1]

/-- The second call finds the winner's millisecond and draws 0 before the winner
has reset the sequence; then the winner draws 0 as well. -/
def drawnBeforeReset : List Move :=
  [.begin, .begin, .step 0, .step 0, .step 0, .step 1, .step 1, .step 1, .step 0, .step 0]

theorem ids_unique_in_turn :
    ∃ s, Reaches Generators.step InTurn (afterEpoch 0 worker_0) s ∧ s.Distinct ∧
      s.result 0 = some 4194304 ∧ s.result 1 = some 4194305 := by
  have hrun : Reaches Generators.step InTurn (afterEpoch 0 worker_0)
      ((run Generators.step InTurn (afterEpoch 0 worker_0) oneAfterTheOther).get (by decide)) :=
    reaches_run_get _
  exact ⟨_, hrun, ids_unique hrun, by decide⟩

theorem id_returned_twice : ¬ ∀ workerId g clock s, SnowflakeGenerator.new workerId = some g →
    Reaches Generators.step Steady ⟨g, clock, []⟩ s → s.Distinct := by
  intro h
  have hrun : Reaches Generators.step Steady (afterEpoch 0 worker_0)
      ((run Generators.step Steady (afterEpoch 0 worker_0) drawnBeforeReset).get (by decide)) :=
    reaches_run_get _
  have hsame := h 0 _ _ _ rfl hrun 0 1 4194304 (by decide) (by decide +kernel)
  cases hsame

end Generators

end Webshelf
