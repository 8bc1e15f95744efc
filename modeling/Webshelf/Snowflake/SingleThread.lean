import Webshelf.Snowflake.Generator

/-!
# The ids of one thread

A thread calls `generate` again and again, and nobody else does. Its clock shows whatever it
likes at each reading, also while it waits.
-/

namespace Webshelf

open Runs

/-- What a call has returned, and the last reading of the clock it made. -/
structure Issued where
  id : Int64
  reading : Option Int64
  deriving DecidableEq

/-- The generator, what the present call does next, what the earlier ones have returned, and all
the readings of the clock. -/
structure Thread where
  generator : SnowflakeGenerator
  pc : Generate := .load
  issued : List Issued := []
  read : List Int64 := []

namespace Thread

def readAfter (s : Thread) (now : Int64) : List Int64 :=
  if s.pc.readsClock then s.read ++ [now] else s.read

/-- A step has led the generator to `g` and the call to `pc`; when it has returned the next one
begins. -/
def advance (s : Thread) (now : Int64) (g : SnowflakeGenerator) : Generate → Thread
  | .returned ts seq =>
    { generator := g
      issued := s.issued ++ [⟨composeId ts g.workerId seq, (s.readAfter now).getLast?⟩]
      read := s.readAfter now }
  | pc => { generator := g, pc := pc, issued := s.issued, read := s.readAfter now }

def step (s : Thread) (now : Int64) : Option Thread :=
  (s.generator.generate now s.pc).map fun (g, pc) => s.advance now g pc

/-- The clock, where it is read, is within the 41 bits of an id. -/
def OnTime (s : Thread) (now : Int64) : Prop := s.pc.readsClock = true → Representable now

instance (s : Thread) (now : Int64) : Decidable (s.OnTime now) :=
  inferInstanceAs (Decidable (_ → _))

/-- A thread with a fresh generator. -/
def fresh (workerId : UInt64) (h : workerId ≤ MAX_WORKER_ID) : Thread :=
  { generator := ⟨workerId, h, 0, 0⟩ }

/-- The ids grow, none is negative, and each decodes to the reading it was made from, the worker
and a number below 4096. -/
structure Increasing (workerId : UInt64) (s : Thread) : Prop where
  sorted : (s.issued.map Issued.id).Pairwise (· < ·)
  nonneg : ∀ i ∈ s.issued, 0 ≤ i.id
  decodes : ∀ i ∈ s.issued, ∃ ts seq, i.reading = some ts ∧ seq ≤ MAX_SEQUENCE ∧
    decodeId i.id = (ts - CUSTOM_EPOCH.toInt64, workerId.toInt64, seq.toInt64)

/-- The next call returns as soon as two readings lie after the last millisecond. -/
def Returns (s : Thread) : Prop :=
  ∀ now, Representable now → s.generator.lastTimestamp < now →
    ∃ s', Reaches Thread.step (fun _ l => l = now) s s' ∧
      s'.issued.length = s.issued.length + 1 ∧ s'.read.length ≤ s.read.length + 2

end Thread

/-! ### Ids as numbers -/

section
variable {ts ts' : Int64} {workerId seq seq' : UInt64}

theorem toInt_composeId (hts : Representable ts) (hw : workerId ≤ MAX_WORKER_ID)
    (hs : seq ≤ MAX_SEQUENCE) : (composeId ts workerId seq).toInt =
      ((ts.toInt - CUSTOM_EPOCH.toNat) * 2 ^ 10 + workerId.toNat) * 2 ^ 12 + seq.toNat := by
  have hd := hts.sinceEpoch_lt
  have hw' := lt_of_le_MAX_WORKER_ID hw
  have hs' := lt_of_le_MAX_SEQUENCE hs
  have hid := @toNat_composeId ts workerId seq hw hs
  have hint := toInt_eq_toNat_cond (composeId ts workerId seq)
  have hsince := sinceEpoch_emod ts
  obtain ⟨hlo, hhi⟩ := hts
  rw [toNat_CUSTOM_EPOCH] at hlo hhi hsince ⊢
  rw [hint, hid]
  split <;> omega

/-- A later millisecond, or a later number of the same one. -/
def Before (p q : Int64 × UInt64) : Prop :=
  p.1.toInt < q.1.toInt ∨ p.1 = q.1 ∧ p.2.toNat < q.2.toNat

theorem composeId_lt (hts : Representable ts) (hts' : Representable ts')
    (hw : workerId ≤ MAX_WORKER_ID) (hs : seq ≤ MAX_SEQUENCE) (hs' : seq' ≤ MAX_SEQUENCE)
    (h : Before (ts, seq) (ts', seq')) :
    composeId ts workerId seq < composeId ts' workerId seq' := by
  apply Int64.lt_iff_toInt_lt.mpr
  rw [toInt_composeId hts hw hs, toInt_composeId hts' hw hs']
  have hlt := lt_of_le_MAX_WORKER_ID hw
  have hseq := lt_of_le_MAX_SEQUENCE hs
  cases h with
  | inl hlater =>
    dsimp only at hlater
    omega
  | inr hsame =>
    obtain ⟨hts, hseq⟩ := hsame
    dsimp only at hts hseq
    rw [hts]
    omega

theorem composeId_nonneg (hts : Representable ts) (hw : workerId ≤ MAX_WORKER_ID)
    (hs : seq ≤ MAX_SEQUENCE) : 0 ≤ composeId ts workerId seq := by
  apply Int64.le_iff_toInt_le.mpr
  rw [toInt_composeId hts hw hs]
  have hlo := hts.1
  change 0 ≤ _
  omega

theorem toNat_add_one (seq : Int64) :
    (seq + 1).toUInt64.toNat = (seq.toUInt64.toNat + 1) % 2 ^ 64 := by
  have hadd : (seq + 1).toUInt64 = seq.toUInt64 + 1 := rfl
  rw [hadd, UInt64.toNat_add]
  rfl

end

/-! ### What a thread keeps -/

/-- The fewest readings that lead to `draws` draws in one millisecond: each draw takes one, and
from the 4096th on another one to wait for. -/
def cost (draws : Nat) : Nat := draws + (draws - 4095)

section
variable {workerId : UInt64} {s s' : Thread} {l : List (Int64 × UInt64)} {draws : Nat}
  {now ts : Int64} {g : SnowflakeGenerator} {pc : Generate}

/-- The ids of the present millisecond are numbered below `draws`, the number of draws in it. -/
structure Epoch (s : Thread) (l : List (Int64 × UInt64)) (draws : Nat) : Prop where
  sequence : s.generator.sequence.toUInt64.toNat = draws % 2 ^ 64
  past : ∀ p ∈ l, p.1.toInt < s.generator.lastTimestamp.toInt ∨
    p.1 = s.generator.lastTimestamp ∧ p.2.toNat < draws

/-- The present call works with its last reading, which is `ts`. -/
structure Holding (s : Thread) (ts : Int64) : Prop where
  onTime : Representable ts
  reading : s.read.getLast? = some ts

/-- The generator has been moved on to `ts`, of which there is no id yet. -/
structure Winning (s : Thread) (l : List (Int64 × UInt64)) (ts : Int64) : Prop
    extends Holding s ts where
  last : s.generator.lastTimestamp = ts
  before : ∀ p ∈ l, p.1.toInt < ts.toInt
  reads : 1 ≤ s.read.length

/-- What holds where the present call stands. -/
def At (s : Thread) (l : List (Int64 × UInt64)) (draws : Nat) : Generate → Prop
  | .load => Epoch s l draws ∧ cost draws ≤ s.read.length
  | .clock last | .backwards last => last = s.generator.lastTimestamp ∧ Epoch s l draws ∧
      cost draws ≤ s.read.length
  | .claim ts => Holding s ts ∧ ts = s.generator.lastTimestamp ∧ Epoch s l draws ∧
      cost draws + 1 ≤ s.read.length
  | .exhausted ts => ts = s.generator.lastTimestamp ∧ Epoch s l draws ∧
      cost draws ≤ s.read.length + 1
  | .compareExchange last ts => Holding s ts ∧ last = s.generator.lastTimestamp ∧ last < ts ∧
      Epoch s l draws ∧ 1 ≤ s.read.length
  | .reset ts => Winning s l ts
  | .first ts => Winning s l ts ∧ s.generator.sequence = 0
  | .returned _ _ => False

/-- The ids were made from the readings and numbers `l`, which come in order. -/
structure Kept (workerId : UInt64) (s : Thread) (l : List (Int64 × UInt64)) (draws : Nat) :
    Prop where
  worker : s.generator.workerId = workerId
  issued : s.issued = l.map fun p => ⟨composeId p.1 workerId p.2, some p.1⟩
  sorted : l.Pairwise Before
  sound : ∀ p ∈ l, Representable p.1 ∧ p.2 ≤ MAX_SEQUENCE
  stands : At s l draws s.pc

theorem Kept.increasing (h : Kept workerId s l draws) : s.Increasing workerId := by
  have hworker : workerId ≤ MAX_WORKER_ID := h.worker ▸ s.generator.inRange
  constructor
  · rw [h.issued, List.map_map, List.pairwise_map]
    apply h.sorted.imp_of_mem
    intro p q hp hq hbefore
    obtain ⟨hpTime, hpSeq⟩ := h.sound p hp
    obtain ⟨hqTime, hqSeq⟩ := h.sound q hq
    exact composeId_lt hpTime hqTime hworker hpSeq hqSeq hbefore
  · rw [h.issued]
    intro i hi
    obtain ⟨p, hp, rfl⟩ := List.mem_map.mp hi
    obtain ⟨hpTime, hpSeq⟩ := h.sound p hp
    exact composeId_nonneg hpTime hworker hpSeq
  · rw [h.issued]
    intro i hi
    obtain ⟨p, hp, rfl⟩ := List.mem_map.mp hi
    obtain ⟨hpTime, hpSeq⟩ := h.sound p hp
    exact ⟨p.1, p.2, rfl, hpSeq, decodeId_composeId hpTime hworker hpSeq⟩

theorem kept_fresh (hw : workerId ≤ MAX_WORKER_ID) :
    Kept workerId (Thread.fresh workerId hw) [] 0 := by
  refine ⟨rfl, rfl, List.Pairwise.nil, by simp, ⟨⟨?_, by simp⟩, Nat.le_refl 0⟩⟩
  rw [Nat.zero_mod]
  rfl

theorem step_some (h : s.step now = some s') : ∃ g pc,
    s.generator.generate now s.pc = some (g, pc) ∧ s' = s.advance now g pc := by
  obtain ⟨⟨g, pc⟩, hg, hs⟩ := Option.map_eq_some_iff.mp h
  exact ⟨g, pc, hg, hs.symm⟩

/-- The number of a new id comes after those there are. -/
theorem Kept.append {g : SnowflakeGenerator} {seq : UInt64} {read : List Int64} {draws' : Nat}
    (h : Kept workerId s l draws) (hg : g.workerId = workerId)
    (hlast : g.lastTimestamp = ts) (hts : Representable ts) (hseq : seq.toNat < 4096)
    (hbefore : ∀ p ∈ l, Before p (ts, seq))
    (hsequence : g.sequence.toUInt64.toNat = draws' % 2 ^ 64) (hdraws : seq.toNat < draws')
    (hcost : cost draws' ≤ read.length) (hread : read.getLast? = some ts) :
    Kept workerId { generator := g
                    issued := s.issued ++ [⟨composeId ts g.workerId seq, read.getLast?⟩]
                    read := read } (l ++ [(ts, seq)]) draws' := by
  constructor
  · exact hg
  · dsimp only
    rw [h.issued, List.map_append, hg, hread]
    rfl
  · apply List.pairwise_append.mpr
    refine ⟨h.sorted, List.pairwise_singleton _ _, ?_⟩
    intro p hp q hq
    rw [List.mem_singleton.mp hq]
    exact hbefore p hp
  · intro p hp
    cases List.mem_append.mp hp with
    | inl hp => exact h.sound p hp
    | inr hp =>
      rw [List.mem_singleton.mp hp]
      exact ⟨hts, UInt64.le_iff_toNat_le.mpr (Nat.le_of_lt_succ hseq)⟩
  · refine ⟨⟨hsequence, ?_⟩, hcost⟩
    intro p hp
    dsimp only
    rw [hlast]
    cases List.mem_append.mp hp with
    | inl hp =>
      cases hbefore p hp with
      | inl hlater => exact Or.inl hlater
      | inr hsame => exact Or.inr ⟨hsame.1, Nat.lt_trans hsame.2 hdraws⟩
    | inr hp =>
      rw [List.mem_singleton.mp hp]
      exact Or.inr ⟨rfl, hdraws⟩

theorem lt_MAX_SEQUENCE {seq : UInt64} : seq < MAX_SEQUENCE ↔ seq.toNat < 4095 :=
  UInt64.lt_iff_toNat_lt

theorem read_advance : (s.advance now g pc).read = s.readAfter now := by
  cases pc <;> rfl

/-- A step that issues nothing keeps the ids. -/
theorem Kept.goOn {draws' : Nat} (h : Kept workerId s l draws)
    (hworker : g.workerId = s.generator.workerId) (hpc : ∀ ts seq, pc ≠ .returned ts seq)
    (hat : At { generator := g, pc := pc, issued := s.issued, read := s.readAfter now }
      l draws' pc) : Kept workerId (s.advance now g pc) l draws' := by
  have hadvance : s.advance now g pc =
      { generator := g, pc := pc, issued := s.issued, read := s.readAfter now } := by
    cases pc with
    | returned ts seq => exact absurd rfl (hpc ts seq)
    | _ => rfl
  rw [hadvance]
  exact ⟨hworker.trans h.worker, h.issued, h.sorted, h.sound, hat⟩

theorem readAfter_clock (h : s.pc.readsClock = true) : s.readAfter now = s.read ++ [now] :=
  if_pos h

theorem readAfter_silent (h : s.pc.readsClock = false) : s.readAfter now = s.read :=
  if_neg (by simp [h])

/-- A reading of the clock: the generator stays as it is. -/
theorem Kept.look (h : Kept workerId s l draws) (hclock : s.pc.readsClock = true)
    (hpc : ∀ ts seq, pc ≠ .returned ts seq)
    (hat : At { generator := s.generator, pc := pc, issued := s.issued, read := s.read ++ [now] }
      l draws pc) : Kept workerId (s.advance now s.generator pc) l draws := by
  apply h.goOn rfl hpc
  rw [readAfter_clock hclock]
  exact hat

/-- Too few readings for the counter to have come round. -/
theorem draws_lt {n : Nat} (hcost : cost draws + 1 ≤ n) (hfew : n < 2 ^ 65 - 4094) :
    draws < 2 ^ 64 := by
  unfold cost at hcost
  omega

/-- The draw of the same millisecond. -/
theorem Kept.claim (h : Kept workerId s l draws) (hpc : s.pc = .claim ts)
    (hfew : s.read.length < 2 ^ 65 - 4094) :
    ∃ l' draws', Kept workerId (s.advance now
      { s.generator with sequence := s.generator.sequence + 1 }
      (if s.generator.sequence.toUInt64 < MAX_SEQUENCE then
        .returned ts s.generator.sequence.toUInt64 else .exhausted ts)) l' draws' := by
  have hat := h.stands
  rw [hpc] at hat
  obtain ⟨hholding, hts, hepoch, hcost⟩ := hat
  have hread : s.readAfter now = s.read := readAfter_silent (by rw [hpc]; rfl)
  have hseq : s.generator.sequence.toUInt64.toNat = draws := by
    rw [hepoch.sequence, Nat.mod_eq_of_lt (draws_lt hcost hfew)]
  have hnext : (s.generator.sequence + 1).toUInt64.toNat = (draws + 1) % 2 ^ 64 := by
    rw [toNat_add_one, hseq]
  by_cases hfits : s.generator.sequence.toUInt64 < MAX_SEQUENCE
  · have hsmall := lt_MAX_SEQUENCE.mp hfits
    have hcost' : cost (draws + 1) ≤ s.read.length := by
      unfold cost at hcost ⊢
      omega
    have hbefore : ∀ p ∈ l, Before p (ts, s.generator.sequence.toUInt64) := by
      intro p hp
      rw [Before, hseq, hts]
      exact hepoch.past p hp
    rw [if_pos hfits]
    refine ⟨l ++ [(ts, s.generator.sequence.toUInt64)], draws + 1, ?_⟩
    simp only [Thread.advance, hread]
    exact h.append (g := { s.generator with sequence := s.generator.sequence + 1 }) h.worker
      hts.symm hholding.onTime (by omega) hbefore hnext (by omega) hcost' hholding.reading
  · have hlarge : ¬ draws < 4095 := by
      rw [← hseq]
      exact mt lt_MAX_SEQUENCE.mpr hfits
    have hcost' : cost (draws + 1) ≤ s.read.length + 1 := by
      unfold cost at hcost ⊢
      omega
    rw [if_neg hfits]
    refine ⟨l, draws + 1, h.goOn rfl (by simp) ?_⟩
    rw [hread]
    refine ⟨hts, ⟨hnext, ?_⟩, hcost'⟩
    intro p hp
    cases hepoch.past p hp with
    | inl hearlier => exact Or.inl hearlier
    | inr hsame => exact Or.inr ⟨hsame.1, Nat.lt_succ_of_lt hsame.2⟩

/-- The winner's draw. -/
theorem Kept.first (h : Kept workerId s l draws) (hpc : s.pc = .first ts) :
    Kept workerId (s.advance now { s.generator with sequence := s.generator.sequence + 1 }
      (.returned ts s.generator.sequence.toUInt64)) (l ++ [(ts, 0)]) 1 := by
  have hat := h.stands
  rw [hpc] at hat
  obtain ⟨hwinning, hzero⟩ := hat
  have hread : s.readAfter now = s.read := readAfter_silent (by rw [hpc]; rfl)
  have hseq : s.generator.sequence.toUInt64 = 0 := by
    rw [hzero]
    rfl
  have hnext : (s.generator.sequence + 1).toUInt64.toNat = 1 % 2 ^ 64 := by
    rw [toNat_add_one, hseq]
    rfl
  simp only [Thread.advance, hread, hseq]
  exact h.append (g := { s.generator with sequence := s.generator.sequence + 1 }) h.worker
    hwinning.last hwinning.onTime (by decide) (fun p hp => Or.inl (hwinning.before p hp)) hnext
    (by decide) hwinning.reads hwinning.reading

theorem last_lt {last : Int64} (hback : ¬ now < last) (hsame : now ≠ last) : last < now := by
  apply Int64.lt_iff_toInt_lt.mpr
  have hle : ¬ now.toInt < last.toInt := mt Int64.lt_iff_toInt_lt.mpr hback
  have hne : now.toInt ≠ last.toInt := fun h => hsame (Int64.toInt_inj.mp h)
  omega

/-- One step, as long as there are fewer than 2 ^ 65 - 4094 readings. -/
theorem Kept.step (h : Kept workerId s l draws) (hok : s.OnTime now)
    (hstep : s.step now = some s') (hfew : s'.read.length < 2 ^ 65 - 4094) :
    ∃ l' draws', Kept workerId s' l' draws' := by
  obtain ⟨g, pc', hg, rfl⟩ := step_some hstep
  rw [read_advance] at hfew
  have hat := h.stands
  have hlength : (s.read ++ [now]).length = s.read.length + 1 := by simp
  cases hpc : s.pc with
  | load =>
    rw [hpc] at hat hg
    cases hg
    obtain ⟨hepoch, hcost⟩ := hat
    refine ⟨l, draws, h.goOn rfl (by simp) ?_⟩
    rw [readAfter_silent (by rw [hpc]; rfl)]
    exact ⟨rfl, ⟨hepoch.sequence, hepoch.past⟩, hcost⟩
  | clock last =>
    have hclock : s.pc.readsClock = true := by rw [hpc]; rfl
    rw [hpc] at hat hg
    obtain ⟨hlast, hepoch, hcost⟩ := hat
    have htime : Representable now := hok hclock
    have hlast? : (s.read ++ [now]).getLast? = some now := List.getLast?_concat
    cases hg
    refine ⟨l, draws, ?_⟩
    by_cases hback : now < last
    · rw [if_pos hback]
      apply h.look hclock (by simp)
      exact ⟨hlast, ⟨hepoch.sequence, hepoch.past⟩, by dsimp only; omega⟩
    · rw [if_neg hback]
      by_cases hsame : now = last
      · rw [if_pos hsame]
        apply h.look hclock (by simp)
        exact ⟨⟨htime, hlast?⟩, hsame.trans hlast, ⟨hepoch.sequence, hepoch.past⟩,
          by dsimp only; omega⟩
      · rw [if_neg hsame]
        apply h.look hclock (by simp)
        exact ⟨⟨htime, hlast?⟩, hlast, last_lt hback hsame, ⟨hepoch.sequence, hepoch.past⟩,
          by dsimp only; omega⟩
  | backwards last =>
    have hclock : s.pc.readsClock = true := by rw [hpc]; rfl
    rw [hpc] at hat hg
    obtain ⟨hlast, hepoch, hcost⟩ := hat
    cases hg
    refine ⟨l, draws, ?_⟩
    by_cases hback : now < last
    · rw [if_pos hback]
      apply h.look hclock (by simp)
      exact ⟨hlast, ⟨hepoch.sequence, hepoch.past⟩, by dsimp only; omega⟩
    · rw [if_neg hback]
      apply h.look hclock (by simp)
      exact ⟨⟨hepoch.sequence, hepoch.past⟩, by dsimp only; omega⟩
  | claim ts =>
    rw [hpc] at hg
    cases hg
    rw [readAfter_silent (by rw [hpc]; rfl)] at hfew
    exact h.claim hpc hfew
  | exhausted ts =>
    have hclock : s.pc.readsClock = true := by rw [hpc]; rfl
    rw [hpc] at hat hg
    obtain ⟨hts, hepoch, hcost⟩ := hat
    cases hg
    refine ⟨l, draws, ?_⟩
    by_cases hwait : now ≤ ts
    · rw [if_pos hwait]
      apply h.look hclock (by simp)
      exact ⟨hts, ⟨hepoch.sequence, hepoch.past⟩, by dsimp only; omega⟩
    · rw [if_neg hwait]
      apply h.look hclock (by simp)
      exact ⟨⟨hepoch.sequence, hepoch.past⟩, by dsimp only; omega⟩
  | compareExchange last ts =>
    rw [hpc] at hat hg
    obtain ⟨hholding, hlast, hlater, hepoch, hreads⟩ := hat
    rw [SnowflakeGenerator.generate, if_pos hlast.symm] at hg
    cases hg
    refine ⟨l, draws, h.goOn rfl (by simp) ?_⟩
    rw [readAfter_silent (by rw [hpc]; rfl)]
    refine ⟨⟨hholding.onTime, hholding.reading⟩, rfl, ?_, hreads⟩
    intro p hp
    have hlt := Int64.lt_iff_toInt_lt.mp (hlast ▸ hlater)
    cases hepoch.past p hp with
    | inl hearlier => exact Int.lt_trans hearlier hlt
    | inr hsame =>
      rw [hsame.1]
      exact hlt
  | reset ts =>
    rw [hpc] at hat hg
    cases hg
    refine ⟨l, draws, h.goOn rfl (by simp) ?_⟩
    rw [readAfter_silent (by rw [hpc]; rfl)]
    exact ⟨⟨⟨hat.onTime, hat.reading⟩, hat.last, hat.before, hat.reads⟩, rfl⟩
  | first ts =>
    rw [hpc] at hg
    cases hg
    exact ⟨_, _, h.first hpc⟩
  | returned ts seq =>
    rw [hpc] at hat
    exact hat.elim

theorem read_le (h : s.step now = some s') : s.read.length ≤ s'.read.length := by
  obtain ⟨g, pc, _, rfl⟩ := step_some h
  rw [read_advance, Thread.readAfter]
  split <;> simp

theorem kept_of_reaches {hw : workerId ≤ MAX_WORKER_ID}
    (h : Reaches Thread.step Thread.OnTime (Thread.fresh workerId hw) s)
    (hfew : s.read.length < 2 ^ 65 - 4094) : ∃ l draws, Kept workerId s l draws := by
  induction h with
  | start => exact ⟨[], 0, kept_fresh hw⟩
  | next _ hok hstep ih =>
    obtain ⟨l, draws, hkept⟩ := ih (Nat.lt_of_le_of_lt (read_le hstep) hfew)
    exact hkept.step hok hstep hfew

/-! ### Calls return -/

/-- With a clock that shows `now`, the present call returns after `n` more readings or fewer. -/
def ReturnsWithin (s : Thread) (now : Int64) (n : Nat) : Prop :=
  ∃ s', Reaches Thread.step (fun _ l => l = now) s s' ∧
    s'.issued.length = s.issued.length + 1 ∧ s'.read.length ≤ s.read.length + n

theorem step_of_generate (s : Thread) (now : Int64)
    (hg : s.generator.generate now s.pc = some (g, pc)) :
    s.step now = some (s.advance now g pc) := by
  rw [Thread.step, hg]
  rfl

theorem ReturnsWithin.before {n : Nat} (hstep : s.step now = some s')
    (hissued : s'.issued = s.issued) (h : ReturnsWithin s' now n) :
    ReturnsWithin s now (n + (s'.read.length - s.read.length)) := by
  obtain ⟨t, hreaches, hlength, hread⟩ := h
  have hfirst : Reaches Thread.step (fun _ l => l = now) s s' := Reaches.single rfl hstep
  refine ⟨t, hfirst.trans hreaches, ?_, ?_⟩
  · rw [hlength, hissued]
  · omega

theorem returns_first (hpc : s.pc = .first ts) : ReturnsWithin s now 0 := by
  refine ⟨_, Reaches.single rfl (step_of_generate s now (by rw [hpc]; rfl)), ?_, ?_⟩
  · simp [Thread.advance]
  · rw [read_advance, readAfter_silent (by rw [hpc]; rfl)]
    exact Nat.le_refl _

theorem returns_reset (hpc : s.pc = .reset ts) : ReturnsWithin s now 0 := by
  have hstep := step_of_generate s now (by rw [hpc]; rfl)
  have hreturns := ReturnsWithin.before hstep rfl (returns_first rfl)
  rw [read_advance, readAfter_silent (by rw [hpc]; rfl)] at hreturns
  simpa using hreturns

theorem returns_compareExchange (hpc : s.pc = .compareExchange s.generator.lastTimestamp ts) :
    ReturnsWithin s now 0 := by
  have hstep : s.step now =
      some (s.advance now { s.generator with lastTimestamp := ts } (.reset ts)) :=
    step_of_generate s now (by rw [hpc, SnowflakeGenerator.generate, if_pos rfl])
  have hreturns := ReturnsWithin.before hstep rfl (returns_reset rfl)
  rw [read_advance, readAfter_silent (by rw [hpc]; rfl)] at hreturns
  simpa using hreturns

theorem returns_clock (hpc : s.pc = .clock s.generator.lastTimestamp)
    (hlater : s.generator.lastTimestamp < now) : ReturnsWithin s now 1 := by
  have hback : ¬ now < s.generator.lastTimestamp := Int64.lt_asymm hlater
  have hsame : now ≠ s.generator.lastTimestamp := fun h => Int64.ne_of_lt hlater h.symm
  have hstep : s.step now = some (s.advance now s.generator
      (.compareExchange s.generator.lastTimestamp now)) :=
    step_of_generate s now (by
      rw [hpc, SnowflakeGenerator.generate, if_neg hback, if_neg hsame])
  have hreturns := ReturnsWithin.before hstep rfl (returns_compareExchange rfl)
  rw [read_advance, readAfter_clock (by rw [hpc]; rfl)] at hreturns
  simpa using hreturns

theorem returns_load (hpc : s.pc = .load) (hlater : s.generator.lastTimestamp < now) :
    ReturnsWithin s now 1 := by
  have hstep := step_of_generate s now (by rw [hpc]; rfl)
  have hnext : ReturnsWithin (s.advance now s.generator
      (.clock s.generator.lastTimestamp)) now 1 := returns_clock rfl hlater
  have hreturns := hnext.before hstep rfl
  rw [read_advance, readAfter_silent (by rw [hpc]; rfl)] at hreturns
  simpa using hreturns

/-- A call that waits loads again. -/
theorem returns_waiting (hclock : s.pc.readsClock = true)
    (hg : s.generator.generate now s.pc = some (s.generator, .load))
    (hlater : s.generator.lastTimestamp < now) : ReturnsWithin s now 2 := by
  have hstep := step_of_generate s now hg
  have hnext : ReturnsWithin (s.advance now s.generator .load) now 1 := returns_load rfl hlater
  have hreturns := hnext.before hstep rfl
  rw [read_advance, readAfter_clock hclock] at hreturns
  simpa using hreturns

theorem ReturnsWithin.mono {n m : Nat} (h : ReturnsWithin s now n) (hle : n ≤ m) :
    ReturnsWithin s now m := by
  obtain ⟨t, hreaches, hlength, hread⟩ := h
  exact ⟨t, hreaches, hlength, Nat.le_trans hread (Nat.add_le_add_left hle _)⟩

theorem returns_exhausted (hpc : s.pc = .exhausted s.generator.lastTimestamp)
    (hlater : s.generator.lastTimestamp < now) : ReturnsWithin s now 2 := by
  apply returns_waiting (by rw [hpc]; rfl) _ hlater
  rw [hpc, SnowflakeGenerator.generate, if_neg (Int64.not_le.mpr hlater)]

theorem Kept.returns (h : Kept workerId s l draws) : s.Returns := by
  intro now _ hlater
  have hat := h.stands
  change ReturnsWithin s now 2
  cases hpc : s.pc with
  | load => exact (returns_load hpc hlater).mono (by decide)
  | clock last =>
    rw [hpc] at hat
    rw [hat.1] at hpc
    exact (returns_clock hpc hlater).mono (by decide)
  | backwards last =>
    rw [hpc] at hat
    rw [hat.1] at hpc
    apply returns_waiting (by rw [hpc]; rfl) _ hlater
    rw [hpc, SnowflakeGenerator.generate, if_neg (Int64.lt_asymm hlater)]
  | claim ts =>
    rw [hpc] at hat
    obtain ⟨_, hts, _, _⟩ := hat
    have hstep := step_of_generate s now (by rw [hpc]; rfl)
    by_cases hfits : s.generator.sequence.toUInt64 < MAX_SEQUENCE
    · rw [if_pos hfits] at hstep
      refine ⟨_, Reaches.single rfl hstep, by simp [Thread.advance], ?_⟩
      rw [read_advance, readAfter_silent (by rw [hpc]; rfl)]
      exact Nat.le_add_right _ _
    · rw [if_neg hfits, hts] at hstep
      have hnext : ReturnsWithin (s.advance now
          { s.generator with sequence := s.generator.sequence + 1 }
          (.exhausted s.generator.lastTimestamp)) now 2 := returns_exhausted rfl hlater
      have hreturns := hnext.before hstep rfl
      rw [read_advance, readAfter_silent (by rw [hpc]; rfl)] at hreturns
      simpa using hreturns
  | exhausted ts =>
    rw [hpc] at hat
    rw [hat.1] at hpc
    exact returns_exhausted hpc hlater
  | compareExchange last ts =>
    rw [hpc] at hat
    rw [hat.2.1] at hpc
    exact (returns_compareExchange hpc).mono (by decide)
  | reset ts => exact (returns_reset hpc).mono (by decide)
  | first ts => exact (returns_first hpc).mono (by decide)
  | returned ts seq =>
    rw [hpc] at hat
    exact hat.elim

/-- The ids of one thread grow, whatever its clock shows, and calls return, as long as it has
read the clock fewer than 2 ^ 65 - 4094 times. -/
theorem ids_increase {hw : workerId ≤ MAX_WORKER_ID}
    (h : Reaches Thread.step Thread.OnTime (Thread.fresh workerId hw) s)
    (hfew : s.read.length < 2 ^ 65 - 4094) : s.Increasing workerId ∧ s.Returns := by
  obtain ⟨l, draws, hkept⟩ := kept_of_reaches h hfew
  exact ⟨hkept.increasing, hkept.returns⟩

end

/-- The clock goes back to a millisecond that has an id. -/
def goesBack : List Int64 :=
  List.replicate 5 1704067200005 ++ [1704067200005, 1704067200001, 1704067200005, 1704067200005,
    1704067200005]

theorem isSome_goesBack :
    (run Thread.step Thread.OnTime (Thread.fresh 0 Generators.worker_0) goesBack).isSome = true := by
  decide

theorem ids_increase_goesBack :
    (((run Thread.step Thread.OnTime (Thread.fresh 0 Generators.worker_0) goesBack).get
      isSome_goesBack).Increasing 0) ∧
    (((run Thread.step Thread.OnTime (Thread.fresh 0 Generators.worker_0) goesBack).get
      isSome_goesBack).Returns) :=
  ids_increase (reaches_run_get isSome_goesBack) (by decide)

/-! ### The counter comes round -/

section
variable {s : Thread} {draws : Nat}

/-- After `draws` draws in the first millisecond of all. -/
structure Drawn (s : Thread) (draws : Nat) : Prop where
  reaches : Reaches Thread.step Thread.OnTime (Thread.fresh 0 Generators.worker_0) s
  pc : s.pc = .load
  worker : s.generator.workerId = 0
  last : s.generator.lastTimestamp = 1704067200000
  sequence : s.generator.sequence.toUInt64.toNat = draws % 2 ^ 64
  first : s.issued.head?.map Issued.id = some (composeId 1704067200000 0 0)
  reads : s.read.length = cost draws

/-- A call that finds the millisecond of the last one is about to draw. -/
theorem Drawn.claims (h : Drawn s draws) : ∃ t,
    Reaches Thread.step Thread.OnTime (Thread.fresh 0 Generators.worker_0) t ∧
      t.pc = .claim 1704067200000 ∧ t.generator = s.generator ∧ t.issued = s.issued ∧
      t.read.length = cost draws + 1 := by
  have hload := step_of_generate s 1704067200000 (by rw [h.pc]; rfl)
  have hread := @read_advance s 1704067200000 s.generator (.clock s.generator.lastTimestamp)
  rw [readAfter_silent (by rw [h.pc]; rfl)] at hread
  generalize hs : s.advance 1704067200000 s.generator (.clock s.generator.lastTimestamp) = t
    at hload hread
  have hpc : t.pc = .clock 1704067200000 := by
    rw [← hs, h.last]
    rfl
  have hclock : t.step 1704067200000 =
      some (t.advance 1704067200000 t.generator (.claim 1704067200000)) :=
    step_of_generate t 1704067200000 (by
      rw [hpc, SnowflakeGenerator.generate, if_neg Int64.lt_irrefl, if_pos rfl])
  refine ⟨_, (h.reaches.next ?_ hload).next ?_ hclock, rfl, ?_, ?_, ?_⟩
  · intro hclock
    rw [h.pc] at hclock
    cases hclock
  · intro _
    decide
  · rw [← hs]
    rfl
  · rw [← hs]
    rfl
  · rw [read_advance, readAfter_clock (by rw [hpc]; rfl), List.length_append, hread, h.reads]
    rfl

theorem Drawn.next (h : Drawn s draws) (hdraws : draws < 2 ^ 64) :
    ∃ s', Drawn s' (draws + 1) := by
  obtain ⟨t, hreaches, hpc, hgen, hissued, hread⟩ := h.claims
  have hseq : t.generator.sequence.toUInt64.toNat = draws := by
    rw [hgen, h.sequence, Nat.mod_eq_of_lt hdraws]
  have hnext : (t.generator.sequence + 1).toUInt64.toNat = (draws + 1) % 2 ^ 64 := by
    rw [toNat_add_one, hseq]
  have hsilent : t.OnTime 1704067200000 := by
    intro hclock
    rw [hpc] at hclock
    cases hclock
  have hstep := step_of_generate t 1704067200000 (by rw [hpc]; rfl)
  have hsame : ∀ pc, (t.advance 1704067200000
      { t.generator with sequence := t.generator.sequence + 1 } pc).read.length =
        cost draws + 1 := by
    intro pc
    rw [read_advance, readAfter_silent (by rw [hpc]; rfl), hread]
  by_cases hfits : t.generator.sequence.toUInt64 < MAX_SEQUENCE
  · have hsmall := lt_MAX_SEQUENCE.mp hfits
    rw [if_pos hfits] at hstep
    refine ⟨_, hreaches.next hsilent hstep, rfl, ?_, ?_, hnext, ?_, ?_⟩
    · exact (congrArg SnowflakeGenerator.workerId hgen).trans h.worker
    · exact (congrArg SnowflakeGenerator.lastTimestamp hgen).trans h.last
    · have hfirst := h.first
      rw [← hissued] at hfirst
      cases hlist : t.issued with
      | nil => simp [hlist] at hfirst
      | cons i rest =>
        rw [hlist] at hfirst
        simp only [Thread.advance, hlist, List.cons_append, List.head?_cons]
        exact hfirst
    · rw [hsame]
      unfold cost
      omega
  · have hlarge : ¬ draws < 4095 := by
      rw [← hseq]
      exact mt lt_MAX_SEQUENCE.mpr hfits
    rw [if_neg hfits] at hstep
    -- the call waits for the next millisecond, and loads again
    generalize hs : t.advance 1704067200000
      { t.generator with sequence := t.generator.sequence + 1 } (.exhausted 1704067200000) = u
      at hstep
    have hupc : u.pc = .exhausted 1704067200000 := by
      rw [← hs]
      rfl
    have hwait : u.step 1704067200001 = some (u.advance 1704067200001 u.generator .load) :=
      step_of_generate u 1704067200001 (by
        rw [hupc, SnowflakeGenerator.generate]
        rfl)
    refine ⟨_, (hreaches.next hsilent hstep).next (fun _ => by decide) hwait, rfl, ?_, ?_, ?_,
      ?_, ?_⟩
    · change u.generator.workerId = 0
      rw [← hs]
      exact (congrArg SnowflakeGenerator.workerId hgen).trans h.worker
    · change u.generator.lastTimestamp = 1704067200000
      rw [← hs]
      exact (congrArg SnowflakeGenerator.lastTimestamp hgen).trans h.last
    · change u.generator.sequence.toUInt64.toNat = _
      rw [← hs]
      exact hnext
    · change u.issued.head?.map Issued.id = _
      rw [← hs]
      exact (congrArg (fun is => is.head?.map Issued.id) hissued).trans h.first
    · rw [read_advance, readAfter_clock (by rw [hupc]; rfl), List.length_append, ← hs, hsame]
      unfold cost
      rw [List.length_singleton]
      omega

def drawnOnce : Thread :=
  (run Thread.step Thread.OnTime (Thread.fresh 0 Generators.worker_0)
    (List.replicate 5 1704067200000)).get (by decide)

theorem exists_drawn (hdraws : draws < 2 ^ 64) : ∃ s, Drawn s (draws + 1) := by
  induction draws with
  | zero =>
    exact ⟨drawnOnce, reaches_run_get _, by decide, by decide, by decide, by decide, by decide,
      by decide⟩
  | succ draws ih =>
    obtain ⟨s, hs⟩ := ih (Nat.lt_of_succ_lt hdraws)
    exact hs.next hdraws

end

/-- After 2 ^ 64 draws in one millisecond the counter is where it was, and the first id comes
again. -/
theorem id_comes_again : ∃ s,
    Reaches Thread.step Thread.OnTime (Thread.fresh 0 Generators.worker_0) s ∧
      s.read.length = 2 ^ 65 - 4094 ∧ ¬ s.Increasing 0 := by
  obtain ⟨s, hs⟩ := @exists_drawn (2 ^ 64 - 1) (by decide)
  obtain ⟨t, hreaches, hpc, hgen, hissued, hread⟩ := hs.claims
  have hseq : t.generator.sequence.toUInt64 = 0 := by
    apply UInt64.toNat_inj.mp
    rw [hgen, hs.sequence]
    rfl
  have hstep := step_of_generate t 1704067200000 (by rw [hpc]; rfl)
  rw [hseq, if_pos (by decide)] at hstep
  refine ⟨_, hreaches.next ?_ hstep, ?_, ?_⟩
  · intro hclock
    rw [hpc] at hclock
    cases hclock
  · rw [read_advance, readAfter_silent (by rw [hpc]; rfl), hread]
    decide
  · intro h
    have hsorted := h.sorted
    have hfirst := hs.first
    have hworker : t.generator.workerId = 0 := by rw [hgen, hs.worker]
    rw [← hissued] at hfirst
    cases hlist : t.issued with
    | nil => simp [hlist] at hfirst
    | cons i rest =>
      rw [hlist, List.head?_cons, Option.map_some, Option.some.injEq] at hfirst
      simp only [Thread.advance, hlist, hworker, List.cons_append, List.map_cons,
        List.map_append, List.map_nil] at hsorted
      have hlt := (List.pairwise_cons.mp hsorted).1 (composeId 1704067200000 0 0) (by simp)
      rw [hfirst] at hlt
      exact Int64.lt_irrefl hlt

end Webshelf
