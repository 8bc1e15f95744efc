import Mathlib.Logic.Relation

/-!
# Guarded runs of an executable machine

A machine is a partial step function: a label names one atomic step, and the
step is `none` where it is not enabled. `Reaches` collects the states of the
runs whose every step meets a guard; the guard reads the state before the step
and the label, never the result.

* `Reaches.invariant`: what the start has and every guarded step keeps holds
  in every state reached;
* `Watched`: the machine with the states it has been in, for what relates the
  present to an earlier moment of the same run;
* `reaches_run`: an executed list of labels is a run, so a concrete run is
  checked by evaluation.
-/

namespace Runs

variable {σ ℓ : Type} {step : σ → ℓ → Option σ} {ok ok' : σ → ℓ → Prop} {s t u : σ}

/-- The states reached from `s` by enabled steps that each meet `ok`. -/
inductive Reaches (step : σ → ℓ → Option σ) (ok : σ → ℓ → Prop) (s : σ) : σ → Prop
  | start : Reaches step ok s s
  | next {t u : σ} {l : ℓ} : Reaches step ok s t → ok t l → step t l = some u →
      Reaches step ok s u

/-- The guard every step meets. -/
def Free (_ : σ) (_ : ℓ) : Prop := True

instance (s : σ) (l : ℓ) : Decidable (Free s l) := inferInstanceAs (Decidable True)

theorem Reaches.invariant {I : σ → Prop} (h : Reaches step ok s t) (h0 : I s)
    (hs : ∀ a l b, I a → ok a l → step a l = some b → I b) : I t := by
  induction h with
  | start => exact h0
  | next _ hok hstep ih => exact hs _ _ _ ih hok hstep

/-- As `invariant`, for a step lemma that may use that its state is reached. -/
theorem Reaches.invariant_of {I : σ → Prop} (h : Reaches step ok s t) (h0 : I s)
    (hs : ∀ a l b, Reaches step ok s a → I a → ok a l → step a l = some b → I b) : I t := by
  induction h with
  | start => exact h0
  | next hr hok hstep ih => exact hs _ _ _ hr ih hok hstep

theorem Reaches.trans (h : Reaches step ok s t) (h' : Reaches step ok t u) :
    Reaches step ok s u := by
  induction h' with
  | start => exact h
  | next _ hok hstep ih => exact .next ih hok hstep

theorem Reaches.mono (h : Reaches step ok s t) (hok : ∀ a l, ok a l → ok' a l) :
    Reaches step ok' s t := by
  induction h with
  | start => exact .start
  | next _ ho hstep ih => exact .next ih (hok _ _ ho) hstep

theorem Reaches.free (h : Reaches step ok s t) : Reaches step Free s t :=
  h.mono fun _ _ _ => trivial

theorem Reaches.single {l : ℓ} (hok : ok s l) (h : step s l = some t) : Reaches step ok s t :=
  .next .start hok h

/-- A machine with the states it has been in, the last one first. -/
structure Watched (σ : Type) where
  now : σ
  past : List σ := []

namespace Watched

/-- Every state of the run, with the present one. -/
def states (f : Watched σ) : List σ := f.now :: f.past

def next (step : σ → ℓ → Option σ) (f : Watched σ) (l : ℓ) : Option (Watched σ) :=
  (step f.now l).map fun t => ⟨t, f.states⟩

theorem next_some {f f' : Watched σ} {l : ℓ} (h : Watched.next step f l = some f') :
    ∃ t, step f.now l = some t ∧ f' = ⟨t, f.states⟩ := by
  obtain ⟨t, ht, rfl⟩ := Option.map_eq_some_iff.mp h
  exact ⟨t, ht, rfl⟩

/-- What every step keeps between two states holds between any earlier state and the present. -/
theorem since {R : σ → σ → Prop} {ok : Watched σ → ℓ → Prop} {f : Watched σ}
    (h : Reaches (Watched.next step) ok ⟨s, []⟩ f) (refl : ∀ a, R a a)
    (hs : ∀ a b l t, R a b → step b l = some t → R a t) : ∀ a ∈ f.states, R a f.now := by
  refine h.invariant (I := fun f => ∀ a ∈ f.states, R a f.now) ?_ ?_
  · intro a ha
    rw [List.mem_singleton.mp ha]
    exact refl s
  · intro f l f' ih _ hstep a ha
    obtain ⟨t, ht, rfl⟩ := next_some hstep
    rcases List.mem_cons.mp ha with rfl | ha
    · exact refl _
    · exact hs a f.now l t (ih a ha) ht

/-- The same run in another view of its states. -/
def map {τ : Type} (g : σ → τ) (f : Watched σ) : Watched τ := ⟨g f.now, f.past.map g⟩

/-- Where each step is one of another machine in this view, so is each run. -/
theorem reaches_map {τ ℓ' : Type} {step' : τ → ℓ' → Option τ} {ok : Watched σ → ℓ → Prop}
    {f : Watched σ} (g : σ → τ)
    (simulates : ∀ a l b, step a l = some b → ∃ l', step' (g a) l' = some (g b))
    (h : Reaches (Watched.next step) ok ⟨s, []⟩ f) :
    Reaches (Watched.next step') Free ⟨g s, []⟩ (f.map g) := by
  induction h with
  | start => exact .start
  | @next f f' l _ _ hstep ih =>
    obtain ⟨t, ht, rfl⟩ := next_some hstep
    obtain ⟨l', hl'⟩ := simulates f.now l t ht
    refine .next ih (l := l') trivial ?_
    exact Option.map_eq_some_iff.mpr ⟨g t, hl', rfl⟩

end Watched

/-- Take the steps of `ls` one after the other, each only if it meets `ok`. -/
def run (step : σ → ℓ → Option σ) (ok : σ → ℓ → Prop) [∀ s l, Decidable (ok s l)] :
    σ → List ℓ → Option σ
  | s, [] => some s
  | s, l :: ls => if ok s l then (step s l).bind fun t => run step ok t ls else none

theorem reaches_run [∀ s l, Decidable (ok s l)] {ls : List ℓ} :
    run step ok s ls = some t → Reaches step ok s t := by
  induction ls generalizing s with
  | nil =>
    intro h
    cases h
    exact .start
  | cons l ls ih =>
    intro h
    simp only [run] at h
    split at h
    · rename_i hok
      obtain ⟨a, ha, hr⟩ := Option.bind_eq_some_iff.mp h
      exact (Reaches.single hok ha).trans (ih hr)
    · cases h

/-- The state an executed run ends in, once the run is known to go through. -/
theorem reaches_run_get [∀ s l, Decidable (ok s l)] {ls : List ℓ}
    (h : (run step ok s ls).isSome = true) : Reaches step ok s ((run step ok s ls).get h) :=
  reaches_run (Option.some_get h).symm

end Runs
