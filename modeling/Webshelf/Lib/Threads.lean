import Mathlib.Algebra.GroupWithZero.Nat
import Mathlib.Data.List.Perm.Subperm
import Webshelf.Lib.Runs

/-!
# Threads over a shared state

A program says what one thread does next: from the shared state and where the
thread is, one atomic step to another shared state and another place. Any
number of threads run it, in any interleaving, and the surroundings may move
the shared state as well.

* `step_cases`: everything a move does;
* `Holds.step`: an assertion on the shared state and one on every thread,
  kept by a thread's own steps, by the steps of the others and by the
  surroundings;
* `countP_set_add`, `sum_set_add`: how a step changes the number of threads at a
  place, and a sum over the threads;
* `length_le_countP`: any list of such threads is bounded by that number.
-/

namespace Threads

/-- What the threads run. A step of thread `n` takes an input from outside. -/
structure Program (σ π ι ε : Type) where
  initial : π → Bool
  next : Nat → σ → π → ι → Option (σ × π)
  /-- A move of the surroundings. -/
  surround : σ → ε → Option σ

/-- The shared state and the threads, in the order they began. -/
structure State (σ π : Type) where
  shared : σ
  threads : List π := []

inductive Label (π ι ε : Type) where
  | begin (p : π)
  | step (n : Nat) (input : ι)
  | surround (e : ε)

variable {σ π ι ε : Type} {prog : Program σ π ι ε} {s s' : State σ π} {l : Label π ι ε}
  {I : σ → Prop} {A : σ → Nat → π → Prop}

def step (prog : Program σ π ι ε) (s : State σ π) : Label π ι ε → Option (State σ π)
  | .begin p => if prog.initial p then some { s with threads := s.threads ++ [p] } else none
  | .step n input => s.threads[n]?.bind fun p =>
    (prog.next n s.shared p input).map fun (a, q) => ⟨a, s.threads.set n q⟩
  | .surround e => (prog.surround s.shared e).map fun a => { s with shared := a }

theorem step_cases (h : step prog s l = some s') :
    (∃ p, l = .begin p ∧ prog.initial p = true ∧
      s' = { s with threads := s.threads ++ [p] }) ∨
    (∃ n input p a q, l = .step n input ∧ s.threads[n]? = some p ∧
      prog.next n s.shared p input = some (a, q) ∧ s' = ⟨a, s.threads.set n q⟩) ∨
    (∃ e a, l = .surround e ∧ prog.surround s.shared e = some a ∧
      s' = { s with shared := a }) := by
  cases l with
  | begin p =>
    simp only [step] at h
    split at h
    · rename_i hp
      exact .inl ⟨p, rfl, hp, (Option.some.inj h).symm⟩
    · cases h
  | step n input =>
    obtain ⟨p, hp, h⟩ := Option.bind_eq_some_iff.mp h
    obtain ⟨⟨a, q⟩, hn, rfl⟩ := Option.map_eq_some_iff.mp h
    exact .inr (.inl ⟨n, input, p, a, q, rfl, hp, hn, rfl⟩)
  | surround e =>
    obtain ⟨a, ha, rfl⟩ := Option.map_eq_some_iff.mp h
    exact .inr (.inr ⟨e, a, rfl, ha, rfl⟩)

theorem get_begin {ps : List π} {p r : π} {n : Nat} (h : (ps ++ [p])[n]? = some r) :
    ps[n]? = some r ∨ n = ps.length ∧ r = p := by
  rw [List.getElem?_append] at h
  split at h
  · exact .inl h
  · rename_i hn
    obtain ⟨hlt, hr⟩ := List.getElem?_eq_some_iff.mp h
    have hn' : n = ps.length := by
      simp only [List.length_singleton] at hlt
      omega
    subst hn'
    simp only [Nat.sub_self, List.getElem_cons_zero] at hr
    exact .inr ⟨rfl, hr.symm⟩

theorem get_set {ps : List π} {p q r : π} {n k : Nat} (hn : ps[n]? = some p)
    (h : (ps.set n q)[k]? = some r) : k = n ∧ r = q ∨ k ≠ n ∧ ps[k]? = some r := by
  by_cases hk : k = n
  · subst hk
    obtain ⟨hlt, -⟩ := List.getElem?_eq_some_iff.mp hn
    rw [List.getElem?_set_self hlt] at h
    exact .inl ⟨rfl, (Option.some.inj h).symm⟩
  · rw [List.getElem?_set_ne (Ne.symm hk)] at h
    exact .inr ⟨hk, h⟩

theorem get_set_self {ps : List π} {p q : π} {n : Nat} (hn : ps[n]? = some p) :
    (ps.set n q)[n]? = some q := by
  obtain ⟨hlt, -⟩ := List.getElem?_eq_some_iff.mp hn
  exact List.getElem?_set_self hlt

theorem get_set_other {ps : List π} {q : π} {n k : Nat} (hk : k ≠ n) :
    (ps.set n q)[k]? = ps[k]? :=
  List.getElem?_set_ne (Ne.symm hk)

/-- An assertion on the shared state, and one that the shared state meets for
every thread. -/
structure Holds (I : σ → Prop) (A : σ → Nat → π → Prop) (s : State σ π) : Prop where
  shared : I s.shared
  thread : ∀ n p, s.threads[n]? = some p → A s.shared n p

/-- A step keeps the assertions if a new thread meets its own, a thread that
takes a step leaves the shared state to itself and to the others as they need
it, and so do the surroundings. -/
theorem Holds.step (h : Holds I A s) (hstep : step prog s l = some s')
    (hbegin : ∀ p, l = .begin p → prog.initial p = true → A s.shared s.threads.length p)
    (hown : ∀ n input p a q, l = .step n input → s.threads[n]? = some p → A s.shared n p →
      prog.next n s.shared p input = some (a, q) →
      I a ∧ A a n q ∧ ∀ k r, k ≠ n → s.threads[k]? = some r → A s.shared k r → A a k r)
    (hsurround : ∀ e a, l = .surround e → prog.surround s.shared e = some a →
      I a ∧ ∀ k r, s.threads[k]? = some r → A s.shared k r → A a k r) : Holds I A s' := by
  obtain ⟨p, hl, hp, rfl⟩ | ⟨n, input, p, a, q, hl, hp, hn, rfl⟩ | ⟨e, a, hl, he, rfl⟩ :=
    step_cases hstep
  · refine ⟨h.shared, ?_⟩
    intro k r hk
    rcases get_begin hk with hk | ⟨rfl, rfl⟩
    · exact h.thread k r hk
    · exact hbegin r hl hp
  · obtain ⟨hI, hA, hothers⟩ := hown n input p a q hl hp (h.thread n p hp) hn
    refine ⟨hI, ?_⟩
    intro k r hk
    rcases get_set hp hk with ⟨rfl, rfl⟩ | ⟨hne, hk⟩
    · exact hA
    · exact hothers k r hne hk (h.thread k r hk)
  · obtain ⟨hI, hothers⟩ := hsurround e a hl he
    exact ⟨hI, fun k r hk => hothers k r hk (h.thread k r hk)⟩

/-- Only the thread that takes a step changes its part of a count. -/
theorem countP_set_add {ps : List π} {p q : π} {n : Nat} (f : π → Bool) (hn : ps[n]? = some p) :
    (ps.set n q).countP f + (if f p then 1 else 0) = ps.countP f + if f q then 1 else 0 := by
  obtain ⟨hlt, hp⟩ := List.getElem?_eq_some_iff.mp hn
  have hpos : (if f p then 1 else 0) ≤ ps.countP f := by
    split
    · rename_i hf
      exact List.countP_pos_iff.mpr ⟨p, List.mem_of_getElem? hn, hf⟩
    · exact Nat.zero_le _
  rw [List.countP_set hlt, hp]
  omega

/-- Only the thread that takes a step changes its part of a sum. -/
theorem sum_set_add {ps : List π} {p q : π} {n : Nat} (f : π → Nat) (hn : ps[n]? = some p) :
    ((ps.set n q).map f).sum + f p = (ps.map f).sum + f q := by
  induction ps generalizing n with
  | nil => cases hn
  | cons r ps ih =>
    cases n with
    | zero =>
      cases hn
      simp only [List.set_cons_zero, List.map_cons, List.sum_cons]
      omega
    | succ n =>
      have hsum := ih (n := n) (List.getElem?_cons_succ ▸ hn)
      simp only [List.set_cons_succ, List.map_cons, List.sum_cons]
      omega

/-- Threads that are all at such a place are no more than there are. -/
theorem length_le_countP {ps : List π} {f : π → Bool} {ns : List Nat} (hnodup : ns.Nodup)
    (h : ∀ n ∈ ns, ∃ p, ps[n]? = some p ∧ f p = true) : ns.length ≤ ps.countP f := by
  have hrange : ps.countP f = (List.range ps.length).countP fun n => ps[n]?.any f := by
    have hmap : ps.map some = (List.range ps.length).map fun n => ps[n]? := by
      apply List.ext_getElem <;> simp
    have hcount := congrArg (List.countP (Option.any f)) hmap
    rw [List.countP_map, List.countP_map] at hcount
    exact hcount
  have hsub : ns ⊆ (List.range ps.length).filter fun n => ps[n]?.any f := by
    intro n hn
    obtain ⟨p, hp, hf⟩ := h n hn
    obtain ⟨hlt, -⟩ := List.getElem?_eq_some_iff.mp hp
    exact List.mem_filter.mpr ⟨List.mem_range.mpr hlt, by rw [hp]; exact hf⟩
  rw [hrange, List.countP_eq_length_filter]
  exact (List.subperm_of_subset hnodup hsub).length_le

/-- At most one thread is at a place that no two of them share. -/
theorem countP_le_one {ps : List π} {f : π → Bool}
    (h : ∀ (n m : Nat) (p q : π), ps[n]? = some p → ps[m]? = some q → f p = true → f q = true →
      n = m) : ps.countP f ≤ 1 := by
  induction ps with
  | nil => exact Nat.zero_le _
  | cons p ps ih =>
    by_cases hp : f p = true
    · have hnone : ps.countP f = 0 := by
        refine List.countP_eq_zero.mpr ?_
        intro q hq hf
        obtain ⟨k, hk⟩ := List.mem_iff_getElem?.mp hq
        have heq := h 0 (k + 1) p q rfl hk hp hf
        omega
      have hone : (p :: ps).countP f = 1 := by
        rw [List.countP_cons_of_pos hp, hnone]
      exact Nat.le_of_eq hone
    · rw [List.countP_cons_of_neg hp]
      refine ih ?_
      intro n m p q hn hm hfp hfq
      exact Nat.succ.inj (h (n + 1) (m + 1) p q hn hm hfp hfq)

end Threads
