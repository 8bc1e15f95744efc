import Webshelf.Routing.ReadCalls
import Webshelf.Lib.Runs
import Mathlib.Logic.Function.Basic

/-!
# Is the circuit breaker honoured?

The health check pings the replicas whose circuit breakers have expired, without the lock, while
requests pick replicas and mark them down. A ping that succeeds clears whatever circuit breaker
it finds.
-/

namespace Webshelf

namespace Routing

namespace AutoRouter

/-- The replicas that `probe_reads` collects. -/
def toProbe (r : AutoRouter) (now : Time) : List Nat :=
  (List.range r.reads.length).filter fun i =>
    (r.downUntil.getD i none).any fun until_ => decide (until_ ≤ now)

/-- The circuit breaker is cleared if there is one. -/
def clear (r : AutoRouter) (idx : Nat) : AutoRouter :=
  if (r.downUntil.getD idx none).isSome then
    { r with
      downUntil := r.downUntil.set idx none
      covers := by rw [List.length_set]; exact r.covers }
  else r

end AutoRouter

/-- Where a call of `probe_reads` stands; `began` is the moment of the history at which its ping
has begun. -/
inductive Probe
  | idle
  | next (toProbe : List Nat)
  | pinging (idx began : Nat) (rest : List Nat)
  | pinged (idx : Nat) (ok : Bool) (began : Nat) (rest : List Nat)

/-- What has happened to a replica. -/
inductive Note
  | picked (idx : Nat) (now : Time)
  | marked (idx : Nat) (now : Time)
  | began (idx : Nat)
  /-- The ping that has begun at the moment `began` has succeeded. -/
  | succeeded (idx began : Nat)
  deriving DecidableEq

def Note.isMark (idx : Nat) : Note → Bool
  | .marked i _ => i == idx
  | _ => false

/-- The router, the time, any number of calls of `probe_reads`, and the history. -/
structure Monitor where
  router : AutoRouter
  clock : Time
  probes : Nat → Probe := fun _ => .idle
  log : List Note := []

inductive Act
  | tick (now : Time)
  /-- `pick_next_read`, which has read the clock before it takes the lock. -/
  | pick (now : Time) (roll : Nat) (exclude : List Nat)
  | markDown (idx : Nat)
  | collect (p : Nat)
  | ping (p : Nat)
  | answer (p : Nat) (ok : Bool)
  | update (p : Nat)
  deriving DecidableEq

namespace Monitor

def note (s : Monitor) (n : Note) : Monitor := { s with log := s.log ++ [n] }

def setProbe (s : Monitor) (p : Nat) (probe : Probe) : Monitor :=
  { s with probes := Function.update s.probes p probe }

def step (s : Monitor) : Act → Option Monitor
  | .tick now => if s.clock ≤ now then some { s with clock := now } else none
  | .pick now roll exclude =>
    if now ≤ s.clock then
      match s.router.pickNextRead ⟨now, roll, .ok, now⟩ exclude with
      | (router, none) => some { s with router := router }
      | (router, some idx) => some ({ s with router := router }.note (.picked idx s.clock))
    else none
  | .markDown idx =>
    some ({ s with router := s.router.markDown idx s.clock }.note (.marked idx s.clock))
  | .collect p =>
    match s.probes p with
    | .idle => some (s.setProbe p (.next (s.router.toProbe s.clock)))
    | _ => none
  | .ping p =>
    match s.probes p with
    | .next [] => some (s.setProbe p .idle)
    | .next (idx :: rest) =>
      some ((s.setProbe p (.pinging idx s.log.length rest)).note (.began idx))
    | _ => none
  | .answer p ok =>
    match s.probes p with
    | .pinging idx began rest =>
      let s := s.setProbe p (.pinged idx ok began rest)
      some (if ok then s.note (.succeeded idx began) else s)
    | _ => none
  | .update p =>
    match s.probes p with
    | .pinged idx true _ rest =>
      some ({ s with router := s.router.clear idx }.setProbe p (.next rest))
    | .pinged idx false _ rest =>
      some (({ s with router := s.router.markDown idx s.clock }.setProbe p (.next rest)).note
        (.marked idx s.clock))
    | _ => none

/-- Before anything has happened, with any health table. -/
def start (r : AutoRouter) (clock : Time) : Monitor := { router := r, clock := clock }

/-- Whether a ping that has succeeded is about to clear a circuit breaker that is still open,
though the replica was marked down since the ping began. -/
def clearsNewer (s : Monitor) : Act → Bool
  | .update p => match s.probes p with
    | .pinged idx true began _ =>
      !AutoRouter.expired s.clock (s.router.downUntil.getD idx none) &&
        (s.log.drop began).any (Note.isMark idx)
    | _ => false
  | _ => false

def SparesNewer (s : Monitor) (a : Act) : Prop := s.clearsNewer a = false

instance (s : Monitor) (a : Act) : Decidable (s.SparesNewer a) :=
  inferInstanceAs (Decidable (_ = false))

end Monitor

/-- A replica marked down is not picked before `circuitBreak` has passed, unless a ping that
began after that has succeeded. -/
def Honoured (circuitBreak : Time) (log : List Note) : Prop :=
  ∀ (before : List Note) (idx : Nat) (t : Time) (since : List Note) (now : Time)
    (after : List Note), log = before ++ .marked idx t :: (since ++ .picked idx now :: after) →
    now < t + circuitBreak → ∃ began, before.length < began ∧ .succeeded idx began ∈ since

/-! ### What the steps keep -/

section
variable {s s' : Monitor} {a : Act} {n : Note} {p idx i : Nat} {now : Time} {r : AutoRouter}

theorem append_singleton_split {α : Type} {l before after : List α} {b c : α}
    (h : l ++ [b] = before ++ c :: after) :
    (after = [] ∧ b = c ∧ l = before) ∨
      ∃ rest, after = rest ++ [b] ∧ l = before ++ c :: rest := by
  cases List.eq_nil_or_concat after with
  | inl hnil =>
    rw [hnil] at h
    obtain ⟨hl, hb⟩ := List.append_inj' h rfl
    exact Or.inl ⟨hnil, (List.cons.inj hb).1, hl⟩
  | inr hconcat =>
    obtain ⟨rest, d, rfl⟩ := hconcat
    rw [List.concat_eq_append] at h ⊢
    rw [← List.cons_append, ← List.append_assoc] at h
    obtain ⟨hl, hb⟩ := List.append_inj' h rfl
    rw [(List.cons.inj hb).1]
    exact Or.inr ⟨rest, rfl, hl⟩

/-- The mark stands, or a ping begun after it has succeeded. -/
def Stands (s : Monitor) (before since : List Note) (idx : Nat) (t : Time) : Prop :=
  (∃ began, before.length < began ∧ .succeeded idx began ∈ since) ∨
    ∃ until_, s.router.downUntil.getD idx none = some until_ ∧
      t + s.router.circuitBreak ≤ until_

/-- Marks that are not `circuitBreak` old stand. -/
def MarksStand (s : Monitor) : Prop :=
  ∀ (before : List Note) (idx : Nat) (t : Time) (since : List Note),
    s.log = before ++ .marked idx t :: since → idx < s.router.reads.length →
    s.clock < t + s.router.circuitBreak → Stands s before since idx t

/-- Nothing was marked in the future. -/
def MarksPast (s : Monitor) : Prop :=
  ∀ idx t, .marked idx t ∈ s.log → t ≤ s.clock

/-- The router keeps its circuit breakers, but for those that have expired. -/
structure Keeps (s s' : Monitor) : Prop where
  reads : s'.router.reads = s.router.reads
  circuitBreak : s'.router.circuitBreak = s.router.circuitBreak
  clock : s.clock ≤ s'.clock
  stays : ∀ i until_, s.router.downUntil.getD i none = some until_ → s'.clock < until_ →
    s'.router.downUntil.getD i none = some until_

theorem MarksStand.keep (h : MarksStand s) (hkeep : Keeps s s') (hlog : s'.log = s.log) :
    MarksStand s' := by
  intro before idx t since hsplit hidx hearly
  rw [hlog] at hsplit
  rw [hkeep.reads] at hidx
  rw [hkeep.circuitBreak] at hearly
  cases h before idx t since hsplit hidx (Int.lt_of_le_of_lt hkeep.clock hearly) with
  | inl hping => exact Or.inl hping
  | inr hstands =>
    obtain ⟨until_, hdown, hlate⟩ := hstands
    apply Or.inr
    rw [hkeep.circuitBreak]
    exact ⟨until_, hkeep.stays idx until_ hdown (Int.lt_of_lt_of_le hearly hlate), hlate⟩

theorem MarksStand.note (h : MarksStand s) (hn : ∀ idx t, n ≠ .marked idx t) :
    MarksStand (s.note n) := by
  intro before idx t since hsplit hidx hearly
  cases append_singleton_split hsplit with
  | inl hlast => exact absurd hlast.2.1 (hn idx t)
  | inr hbefore =>
    obtain ⟨rest, rfl, hlog⟩ := hbefore
    cases h before idx t rest hlog hidx hearly with
    | inl hping =>
      obtain ⟨began, hafter, hmem⟩ := hping
      exact Or.inl ⟨began, hafter, List.mem_append_left _ hmem⟩
    | inr hstands => exact Or.inr hstands

theorem getD_markDown (hidx : idx < r.reads.length) :
    (r.markDown idx now).downUntil.getD i none =
      if i = idx then some (now + r.circuitBreak) else r.downUntil.getD i none := by
  rw [List.getD_eq_getElem?_getD, AutoRouter.markDown]
  by_cases hi : i = idx
  · rw [if_pos hi, hi, List.getElem?_set_self (r.covers ▸ hidx), Option.getD_some]
  · rw [if_neg hi, List.getElem?_set_ne (Ne.symm hi), ← List.getD_eq_getElem?_getD]

/-- A new mark stands longer than those there are. -/
theorem MarksStand.markDown (h : MarksStand s) (hpast : MarksPast s) :
    MarksStand ({ s with router := s.router.markDown idx s.clock }.note
      (.marked idx s.clock)) := by
  intro before i t since hsplit hi hearly
  change t + s.router.circuitBreak > s.clock at hearly
  change i < s.router.reads.length at hi
  have hdown : ∀ (j : Nat), idx < s.router.reads.length →
      (s.router.markDown idx s.clock).downUntil.getD j none =
        if j = idx then some (s.clock + s.router.circuitBreak)
        else s.router.downUntil.getD j none := fun j hj => getD_markDown hj
  cases append_singleton_split hsplit with
  | inl hlast =>
    obtain ⟨_, hmark, _⟩ := hlast
    cases hmark
    apply Or.inr
    refine ⟨s.clock + s.router.circuitBreak, ?_, Int.le_refl _⟩
    exact (hdown idx hi).trans (if_pos rfl)
  | inr hbefore =>
    obtain ⟨rest, rfl, hlog⟩ := hbefore
    cases h before i t rest hlog hi hearly with
    | inl hping =>
      obtain ⟨began, hafter, hmem⟩ := hping
      exact Or.inl ⟨began, hafter, List.mem_append_left _ hmem⟩
    | inr hstands =>
      obtain ⟨until_, hold, hlate⟩ := hstands
      apply Or.inr
      by_cases hsame : i = idx
      · subst hsame
        have hle : t ≤ s.clock := hpast i t (by
          rw [show s.log = before ++ .marked i t :: rest from hlog]
          simp)
        refine ⟨s.clock + s.router.circuitBreak, (hdown i hi).trans (if_pos rfl), ?_⟩
        exact Int.add_le_add_right hle _
      · refine ⟨until_, ?_, hlate⟩
        by_cases hidx : idx < s.router.reads.length
        · exact (hdown i hidx).trans ((if_neg hsame).trans hold)
        · have hout : s.router.downUntil.length ≤ idx := by
            rw [s.router.covers]
            exact Nat.le_of_not_lt hidx
          change (s.router.downUntil.set idx _).getD i none = _
          rw [List.set_eq_of_length_le hout]
          exact hold

theorem getD_clear (h : i ≠ idx) :
    (r.clear idx).downUntil.getD i none = r.downUntil.getD i none := by
  unfold AutoRouter.clear
  split
  · rw [List.getD_eq_getElem?_getD, List.getElem?_set_ne (Ne.symm h),
      ← List.getD_eq_getElem?_getD]
  · rfl

theorem clear_config : (r.clear idx).reads = r.reads ∧
    (r.clear idx).circuitBreak = r.circuitBreak := by
  unfold AutoRouter.clear
  split <;> exact ⟨rfl, rfl⟩

/-- A mark that is cleared was followed by the ping that clears it. -/
theorem MarksStand.clear {began : Nat} {router : AutoRouter} (h : MarksStand s)
    (hping : .succeeded idx began ∈ s.log.drop began)
    (hseen : AutoRouter.expired s.clock (s.router.downUntil.getD idx none) = false →
      ∀ t, .marked idx t ∉ s.log.drop began)
    (hrouter : router = s.router.clear idx) :
    MarksStand { s with router := router } := by
  subst hrouter
  obtain ⟨hreads, hbreak⟩ := @clear_config idx s.router
  intro before i t since hsplit hi hearly
  dsimp only at hsplit hi hearly
  rw [hreads] at hi
  rw [hbreak] at hearly
  cases h before i t since hsplit hi hearly with
  | inl hlater => exact Or.inl hlater
  | inr hstands =>
    obtain ⟨until_, hold, hlate⟩ := hstands
    by_cases hsame : i = idx
    · subst hsame
      have hopen : AutoRouter.expired s.clock (s.router.downUntil.getD i none) = false := by
        rw [hold]
        simp only [AutoRouter.expired, Option.all_some, decide_eq_false_iff_not]
        intro hle
        exact absurd (Int.lt_of_lt_of_le hearly hlate) (Int.not_lt.mpr hle)
      have hnone := hseen hopen t
      rw [hsplit] at hping hnone
      apply Or.inl
      by_cases hafter : before.length < began
      · refine ⟨began, hafter, ?_⟩
        rw [List.drop_append, List.drop_eq_nil_of_le (Nat.le_of_lt hafter), List.nil_append,
          show began - before.length = (began - before.length - 1) + 1 by omega,
          List.drop_succ_cons] at hping
        exact List.mem_of_mem_drop hping
      · rw [List.drop_append_of_le_length (Nat.le_of_not_lt hafter)] at hnone
        exact absurd (List.mem_append_right _ (List.mem_cons_self ..)) hnone
    · apply Or.inr
      refine ⟨until_, ?_, ?_⟩
      · exact (getD_clear hsame).trans hold
      · change t + (s.router.clear idx).circuitBreak ≤ until_
        rw [hbreak]
        exact hlate

theorem MarksPast.later (h : MarksPast s) (hlog : s'.log = s.log) (hclock : s.clock ≤ s'.clock) :
    MarksPast s' := by
  intro idx t ht
  rw [hlog] at ht
  exact Int.le_trans (h idx t ht) hclock

theorem MarksPast.note (h : MarksPast s) (hn : ∀ idx t, n = .marked idx t → t ≤ s.clock) :
    MarksPast (s.note n) := by
  intro idx t ht
  cases List.mem_append.mp ht with
  | inl ht => exact h idx t ht
  | inr ht => exact hn idx t (List.mem_singleton.mp ht).symm

/-- What is known of one call of `probe_reads`. -/
def PingPast (log : List Note) : Probe → Prop
  | .idle | .next _ => True
  | .pinging _ began _ => began ≤ log.length
  | .pinged idx ok began _ => began ≤ log.length ∧
    (ok = true → .succeeded idx began ∈ log.drop began)

theorem PingPast.append {log : List Note} {probe : Probe} (h : PingPast log probe) :
    PingPast (log ++ [n]) probe := by
  cases probe with
  | idle | next => trivial
  | pinging idx began rest =>
    have hle : began ≤ log.length := h
    simp only [PingPast, List.length_append]
    omega
  | pinged idx ok began rest =>
    obtain ⟨hle, hping⟩ := h
    refine ⟨by rw [List.length_append]; omega, fun hok => ?_⟩
    rw [List.drop_append_of_le_length hle]
    exact List.mem_append_left _ (hping hok)

theorem Honoured.note {circuitBreak : Time} {log : List Note} (h : Honoured circuitBreak log)
    (hn : ∀ idx now, n = .picked idx now → ∀ before t since,
      log = before ++ .marked idx t :: since → now < t + circuitBreak →
        ∃ began, before.length < began ∧ .succeeded idx began ∈ since) :
    Honoured circuitBreak (log ++ [n]) := by
  intro before idx t since now after hsplit hearly
  rw [← List.cons_append, ← List.append_assoc] at hsplit
  cases append_singleton_split hsplit with
  | inl hlast =>
    obtain ⟨_, hpick, hlog⟩ := hlast
    exact hn idx now hpick before t since hlog hearly
  | inr hbefore =>
    obtain ⟨rest, _, hlog⟩ := hbefore
    rw [List.append_assoc, List.cons_append] at hlog
    exact h before idx t since now rest hlog hearly

theorem keeps_picked {exclude : List Nat} {router : AutoRouter}
    (h : Picked s.router router now exclude) (hle : now ≤ s.clock) :
    Keeps s { s with router := router } := by
  refine ⟨h.reads, h.circuitBreak, Int.le_refl _, ?_⟩
  intro i until_ hold hlate
  change s.clock < until_ at hlate
  change router.downUntil.getD i none = some until_
  rw [h.downUntil, List.getD_eq_getElem?_getD, AutoRouter.recover, List.getElem?_mapIdx]
  rw [List.getD_eq_getElem?_getD] at hold
  cases hget : s.router.downUntil[i]? with
  | none => simp [hget] at hold
  | some old =>
    rw [hget, Option.getD_some] at hold
    have hopen : AutoRouter.expired now old = false := by
      rw [hold]
      simp only [AutoRouter.expired, Option.all_some, decide_eq_false_iff_not]
      exact Int.not_le.mpr (Int.lt_of_le_of_lt hle hlate)
    simp [hold ▸ hopen, hold]

structure Sound (s : Monitor) : Prop where
  marks : MarksStand s
  past : MarksPast s
  pings : ∀ p, PingPast s.log (s.probes p)
  honoured : Honoured s.router.circuitBreak s.log

theorem sound_start {clock : Time} : Sound (Monitor.start r clock) := by
  constructor
  · intro before idx t since h
    simp [Monitor.start] at h
  · intro idx t h
    simp [Monitor.start] at h
  · intro p
    trivial
  · intro before idx t since now after h
    simp [Monitor.start] at h

theorem pings_setProbe {probe : Probe} {log : List Note}
    (h : ∀ q, PingPast log (s.probes q)) (hp : PingPast log probe) (q : Nat) :
    PingPast log ((s.setProbe p probe).probes q) := by
  unfold Monitor.setProbe
  by_cases hq : q = p
  · subst hq
    simpa using hp
  · simpa [hq] using h q

theorem Sound.pick {roll : Nat} {exclude : List Nat} (h : Sound s)
    (hstep : s.step (.pick now roll exclude) = some s') : Sound s' := by
  simp only [Monitor.step] at hstep
  split at hstep
  · rename_i hle
    obtain ⟨hpicked, hnext⟩ :=
      @pickNextRead_cases s.router ⟨now, roll, .ok, now⟩ exclude
    cases hpick : s.router.pickNextRead ⟨now, roll, .ok, now⟩ exclude with
    | mk router next =>
      rw [hpick] at hpicked hnext hstep
      have hkeeps := keeps_picked hpicked hle
      cases next with
      | none =>
        cases hstep
        exact ⟨h.marks.keep hkeeps rfl, h.past.later rfl (Int.le_refl _), h.pings,
          hpicked.circuitBreak ▸ h.honoured⟩
      | some idx =>
        cases hstep
        have hpast : MarksPast { s with router := router } := h.past.later rfl (Int.le_refl _)
        refine ⟨(h.marks.keep hkeeps rfl).note (by simp), hpast.note (by simp),
          fun p => (h.pings p).append, ?_⟩
        change Honoured router.circuitBreak (s.log ++ [.picked idx s.clock])
        rw [hpicked.circuitBreak]
        apply h.honoured.note
        intro i time hsame before t since hlog hearly
        cases hsame
        have hidx : idx ∈ s.router.healthy now exclude := by
          cases hnext with
          | inl hnone => cases hnone.2
          | inr hsome =>
            obtain ⟨i, hi, hsame⟩ := hsome
            cases hsame
            exact hi
        obtain ⟨hlt, _, hup⟩ := mem_healthy.mp hidx
        cases h.marks before idx t since hlog hlt hearly with
        | inl hping => exact hping
        | inr hstands =>
          -- a circuit breaker that stands is not picked
          obtain ⟨until_, hdown, hlate⟩ := hstands
          rw [hdown] at hup
          have hexpired : until_ ≤ now := by simpa [AutoRouter.expired] using hup
          have hlt := Int.lt_of_lt_of_le hearly hlate
          exact absurd (Int.le_trans hexpired hle) (Int.not_le.mpr hlt)
  · cases hstep

theorem Sound.markDown (idx : Nat) (h : Sound s) : Sound ({ s with
    router := s.router.markDown idx s.clock }.note (.marked idx s.clock)) := by
  have hpast : MarksPast { s with router := s.router.markDown idx s.clock } :=
    h.past.later rfl (Int.le_refl _)
  refine ⟨h.marks.markDown h.past, ?_, fun p => (h.pings p).append, ?_⟩
  · apply hpast.note
    intro i t hsame
    cases hsame
    exact Int.le_refl _
  · apply h.honoured.note
    intro i t hsame
    cases hsame

theorem Sound.setProbe (p : Nat) (probe : Probe) (h : Sound s) (hp : PingPast s.log probe) :
    Sound (s.setProbe p probe) :=
  ⟨h.marks, h.past, pings_setProbe h.pings hp, h.honoured⟩

theorem Sound.update (h : Sound s) (hok : s.SparesNewer (.update p))
    (hstep : s.step (.update p) = some s') : Sound s' := by
  have hp := h.pings p
  simp only [Monitor.step] at hstep
  simp only [Monitor.SparesNewer, Monitor.clearsNewer] at hok
  cases hprobe : s.probes p with
  | idle | next | pinging => simp [hprobe] at hstep
  | pinged idx ok began rest =>
    rw [hprobe] at hstep hok hp
    obtain ⟨hle, hping⟩ := hp
    cases ok with
    | true =>
      cases hstep
      have hcleared : Sound { s with router := s.router.clear idx } := by
        have hseen : AutoRouter.expired s.clock (s.router.downUntil.getD idx none) = false →
            ∀ t, .marked idx t ∉ s.log.drop began := by
          intro hopen t hmem
          dsimp only at hok
          rw [hopen, Bool.not_false, Bool.true_and] at hok
          have hmark := List.any_eq_false.mp hok _ hmem
          simp [Note.isMark] at hmark
        refine ⟨h.marks.clear (hping rfl) hseen rfl, h.past, h.pings, ?_⟩
        dsimp only
        rw [(@clear_config idx s.router).2]
        exact h.honoured
      exact hcleared.setProbe p (.next rest) trivial
    | false =>
      cases hstep
      have hmark := (h.setProbe p (.next rest) trivial).markDown idx
      exact hmark

theorem Sound.step (h : Sound s) (hok : s.SparesNewer a) (hstep : s.step a = some s') :
    Sound s' := by
  cases a with
  | tick now =>
    simp only [Monitor.step] at hstep
    split at hstep
    · rename_i hle
      cases hstep
      have hkeeps : Keeps s { s with clock := now } := ⟨rfl, rfl, hle, fun _ _ h _ => h⟩
      exact ⟨h.marks.keep hkeeps rfl, h.past.later rfl hle, h.pings, h.honoured⟩
    · cases hstep
  | pick now roll exclude => exact h.pick hstep
  | markDown idx =>
    cases hstep
    exact h.markDown idx
  | collect p =>
    simp only [Monitor.step] at hstep
    split at hstep
    · cases hstep
      exact h.setProbe _ _ trivial
    · cases hstep
  | ping p =>
    simp only [Monitor.step] at hstep
    split at hstep
    · cases hstep
      exact h.setProbe _ _ trivial
    · rename_i idx rest _
      cases hstep
      have hset := h.setProbe p (.pinging idx s.log.length rest) (Nat.le_refl _)
      refine ⟨hset.marks.note (by simp), hset.past.note (by simp),
        fun q => (hset.pings q).append, ?_⟩
      apply hset.honoured.note
      simp
    · cases hstep
  | answer p ok =>
    have hp := h.pings p
    simp only [Monitor.step] at hstep
    split at hstep
    · rename_i idx began rest hprobe
      cases hstep
      rw [hprobe] at hp
      have hle : began ≤ s.log.length := hp
      cases ok with
      | false => exact h.setProbe _ _ ⟨hle, by simp⟩
      | true =>
        have hsound : Sound (s.note (.succeeded idx began)) := by
          refine ⟨h.marks.note (by simp), h.past.note (by simp),
            fun q => (h.pings q).append, ?_⟩
          apply h.honoured.note
          simp
        have hset := hsound.setProbe p (.pinged idx true began rest) (by
          refine ⟨?_, fun _ => ?_⟩
          · simp only [Monitor.note, List.length_append]
            omega
          · simp only [Monitor.note, List.drop_append_of_le_length hle]
            exact List.mem_append_right _ (List.mem_singleton_self _))
        exact hset
    · cases hstep
  | update p => exact h.update hok hstep

theorem circuitBreak_step (hstep : s.step a = some s') :
    s'.router.circuitBreak = s.router.circuitBreak := by
  cases a with
  | pick now roll exclude =>
    simp only [Monitor.step] at hstep
    have hpicked := (@pickNextRead_cases s.router ⟨now, roll, .ok, now⟩ exclude).1.circuitBreak
    split at hstep
    · split at hstep
      · rename_i hpick
        rw [hpick] at hpicked
        cases hstep
        exact hpicked
      · rename_i hpick
        rw [hpick] at hpicked
        cases hstep
        exact hpicked
    · cases hstep
  | markDown idx =>
    cases hstep
    rfl
  | update p =>
    simp only [Monitor.step] at hstep
    split at hstep
    · cases hstep
      exact clear_config.2
    · cases hstep
      rfl
    · cases hstep
  | tick | collect | ping | answer =>
    simp only [Monitor.step] at hstep
    split at hstep <;> cases hstep <;> try split
    all_goals rfl

/-- As long as no ping that has succeeded clears a mark made since it began, the circuit breaker
is honoured, whoever picks, marks and probes, and in whatever order. -/
theorem honoured_of_sparesNewer {clock : Time}
    (h : Runs.Reaches Monitor.step Monitor.SparesNewer (Monitor.start r clock) s) :
    Honoured r.circuitBreak s.log := by
  have hinv : Sound s ∧ s.router.circuitBreak = r.circuitBreak := by
    refine h.invariant (I := fun s => Sound s ∧ s.router.circuitBreak = r.circuitBreak)
      ⟨sound_start, rfl⟩ ?_
    intro s a s' hs hok hstep
    exact ⟨hs.1.step hok hstep, (circuitBreak_step hstep).trans hs.2⟩
  rw [← hinv.2]
  exact hinv.1.honoured

end

/-- One replica, whose circuit breaker has expired. -/
def recovering : AutoRouter :=
  { reads := [1], downUntil := [some 0], covers := rfl }

/-- The replica is marked down, and pinged when the time has passed. -/
def pingedLater : List Act :=
  [.pick 0 0 [], .markDown 0, .tick (seconds 30), .collect 0, .ping 0, .answer 0 true,
    .update 0, .pick (seconds 30) 0 []]

theorem isSome_pingedLater : (Runs.run Monitor.step Monitor.SparesNewer
    (Monitor.start recovering 0) pingedLater).isSome = true := by decide

theorem honoured_recovering : Honoured recovering.circuitBreak
    ((Runs.run Monitor.step Monitor.SparesNewer (Monitor.start recovering 0) pingedLater).get
      isSome_pingedLater).log :=
  honoured_of_sparesNewer (Runs.reaches_run_get isSome_pingedLater)

/-- The replica is marked down while it is pinged. -/
def markedMeanwhile : List Act :=
  [.collect 0, .ping 0, .pick 0 0 [], .markDown 0, .answer 0 true, .update 0, .pick 0 0 []]

theorem log_markedMeanwhile : (Runs.run Monitor.step Runs.Free (Monitor.start recovering 0)
    markedMeanwhile).map Monitor.log =
      some [.began 0, .picked 0 0, .marked 0 0, .succeeded 0 0, .picked 0 0] := by decide

/-- It is picked again at once. -/
theorem not_honoured_recovering : ∃ s,
    Runs.Reaches Monitor.step Runs.Free (Monitor.start recovering 0) s ∧
      ¬ Honoured recovering.circuitBreak s.log := by
  obtain ⟨s, hs, hlog⟩ := Option.map_eq_some_iff.mp log_markedMeanwhile
  refine ⟨s, Runs.reaches_run hs, ?_⟩
  rw [hlog]
  intro h
  obtain ⟨began, hlater, hmem⟩ :=
    h [.began 0, .picked 0 0] 0 0 [.succeeded 0 0] 0 [] rfl (by decide)
  rw [List.mem_singleton] at hmem
  cases hmem
  cases hlater

end Routing

end Webshelf
