import Mathlib.Data.List.Basic
import Mathlib.Logic.Function.Basic

/-!
# A table of inserted and deleted rows under READ COMMITTED

The rows of the table are never updated: transactions insert, lock and delete
them. A row carries the transaction that inserted, locked or deleted it until
that transaction ends. A DELETE takes its snapshot when it starts
(`snapshot`), then visits the rows of the snapshot in order (`deleteScan`): it
waits at a row another transaction holds, and skips a row that is gone by the
time it gets there. `Step` is everything one transaction's statement can do to
the row of one identifier. `stored` is a row as it counts between transactions:
an INSERT and a DELETE take effect at the COMMIT.
-/

/-- Who has a row in hand: nobody, or a transaction not yet ended. -/
inductive Hold (τ : Type) where
  | live
  | inserted (t : τ)
  | locked (t : τ)
  | deleted (t : τ)
  deriving DecidableEq

/-- Rows by their serial number; numbers from `next` on are unused. -/
structure Heap (τ α : Type) where
  next : Nat
  get : Nat → Option (α × Hold τ)
  fresh : ∀ i, next ≤ i → get i = none

namespace Hold

variable {τ : Type} [DecidableEq τ]

def owner : Hold τ → Option τ
  | live => none
  | inserted t | locked t | deleted t => some t

/-- A statement of `t` that needs the row waits. -/
def heldByOther (t : τ) (h : Hold τ) : Bool :=
  match h.owner with
  | some o => decide (o ≠ t)
  | none => false

/-- A statement of `t` that starts now sees the row. -/
def visible (t : τ) : Hold τ → Bool
  | live | locked _ => true
  | inserted o => decide (o = t)
  | deleted o => decide (o ≠ t)

theorem heldByOther_iff {t : τ} {h : Hold τ} :
    h.heldByOther t = true ↔ ∃ o, h.owner = some o ∧ o ≠ t := by
  unfold heldByOther
  cases h.owner <;> simp

end Hold

namespace Heap

variable {τ α : Type} [DecidableEq τ]

/-- A table that holds the given rows. -/
def ofList (as : List α) : Heap τ α where
  next := as.length
  get i := as[i]?.map (·, .live)
  fresh i hi := by simp [hi]

omit [DecidableEq τ] in
theorem ofList_live {as : List α} {i : Nat} {a : α} {s : Hold τ}
    (h : (ofList as).get i = some (a, s)) : s = .live := by
  obtain ⟨_, _, he⟩ := Option.map_eq_some_iff.mp h
  cases he
  rfl

/-- Change each row on its own. -/
def mapRows (f : Nat → α × Hold τ → Option (α × Hold τ)) (h : Heap τ α) : Heap τ α where
  next := h.next
  get i := (h.get i).bind (f i)
  fresh i hi := by simp [h.fresh i hi]

/-- INSERT by transaction `t`; the row's number is the table's next one. -/
def insert (t : τ) (a : α) (h : Heap τ α) : Heap τ α where
  next := h.next + 1
  get := Function.update h.get h.next (some (a, .inserted t))
  fresh i hi := by
    rw [Function.update_of_ne (by omega)]
    exact h.fresh i (by omega)

/-- SELECT … FOR UPDATE by `t` has the row `i` in hand. A row of `t`'s own stays its own. -/
def lock (t : τ) (i : Nat) (h : Heap τ α) : Heap τ α :=
  h.mapRows fun j (a, s) => some (a, if j = i ∧ s = .live then .locked t else s)

/-- DELETE by `t` of the row `i`; a row `t` inserted itself is gone at once. -/
def delete (t : τ) (i : Nat) (h : Heap τ α) : Heap τ α :=
  h.mapRows fun j (a, s) =>
    if j = i then (if s = .inserted t then none else some (a, .deleted t)) else some (a, s)

def commit (t : τ) (h : Heap τ α) : Heap τ α :=
  h.mapRows fun _ (a, s) =>
    if s.owner = some t then (if s = .deleted t then none else some (a, .live)) else some (a, s)

def rollback (t : τ) (h : Heap τ α) : Heap τ α :=
  h.mapRows fun _ (a, s) =>
    if s.owner = some t then (if s = .inserted t then none else some (a, .live)) else some (a, s)

/-- The rows of a statement of `t` that starts now. -/
def snapshot (t : τ) (p : α → Bool) (h : Heap τ α) : List Nat :=
  (List.range h.next).filter fun i =>
    match h.get i with
    | some (a, s) => s.visible t && p a
    | none => false

/-- Delete the rows of the snapshot in order, up to the first one another
transaction holds; the rows not yet visited are what remains. -/
def deleteScan (t : τ) : List Nat → Heap τ α → List Nat × Heap τ α
  | [], h => ([], h)
  | i :: is, h =>
    match h.get i with
    | none => deleteScan t is h
    | some (_, s) => if s.heldByOther t then (i :: is, h) else deleteScan t is (h.delete t i)

/-- The rows a cascading DELETE outside any transaction takes with it. -/
def drop (p : α → Bool) (h : Heap τ α) : Heap τ α :=
  h.mapRows fun _ (a, s) => if p a ∧ s = .live then none else some (a, s)

/-- What one statement of `t` can do to the row of one number. -/
inductive Step (t : τ) : Option (α × Hold τ) → Option (α × Hold τ) → Prop
  | stay {r : Option (α × Hold τ)} : Step t r r
  | insert (a : α) : Step t none (some (a, .inserted t))
  | lock (a : α) : Step t (some (a, .live)) (some (a, .locked t))
  | delete (a : α) {s : Hold τ} (free : s.heldByOther t = false) (old : s ≠ .inserted t) :
      Step t (some (a, s)) (some (a, .deleted t))
  | undo (a : α) : Step t (some (a, .inserted t)) none
  | gone (a : α) : Step t (some (a, .deleted t)) none
  | release (a : α) {s : Hold τ} (own : s.owner = some t) : Step t (some (a, s)) (some (a, .live))
  | drop (a : α) : Step t (some (a, .live)) none

section
variable {t o : τ} {i j : Nat} {a : α} {s : Hold τ} {h : Heap τ α} {r r' : Option (α × Hold τ)}
  {is : List Nat} {p : α → Bool}

/-- A row another transaction holds is left alone. -/
theorem Step.other (hs : Step t r r') (hr : r = some (a, s)) (ho : s.owner = some o)
    (hne : o ≠ t) : r' = r := by
  subst hr
  cases hs with
  | stay => rfl
  | lock => cases ho
  | delete _ free _ =>
    rw [Hold.heldByOther_iff.mpr ⟨o, ho, hne⟩] at free
    cases free
  | undo | gone =>
    cases ho
    exact absurd rfl hne
  | release _ own =>
    rw [ho] at own
    cases own
    exact absurd rfl hne
  | drop => cases ho

/-- A row's contents never change. -/
theorem Step.val {b : α} {s' : Hold τ} (hs : Step t r r') (hr : r = some (a, s))
    (hr' : r' = some (b, s')) : b = a := by
  subst hr hr'
  cases hs <;> rfl

/-- A row is taken in hand by the stepping transaction only. -/
theorem Step.owner_other {s' : Hold τ} (hs : Step t r r') (hr' : r' = some (a, s'))
    (ho : s'.owner = some o) (hne : o ≠ t) : r = some (a, s') := by
  subst hr'
  cases hs with
  | stay => rfl
  | insert | lock | delete _ _ _ =>
    cases ho
    exact absurd rfl hne
  | release => cases ho

omit [DecidableEq τ] in
theorem mapRows_get {f : Nat → α × Hold τ → Option (α × Hold τ)} :
    (h.mapRows f).get i = (h.get i).bind (f i) := rfl

omit [DecidableEq τ] in
theorem mapRows_gone {f : Nat → α × Hold τ → Option (α × Hold τ)} (hg : h.get i = none) :
    (h.mapRows f).get i = none := by
  rw [mapRows_get, hg, Option.bind_none]

omit [DecidableEq τ] in
theorem lt_next {r : α × Hold τ} (hg : h.get i = some r) : i < h.next := by
  by_contra hge
  rw [h.fresh i (by omega)] at hg
  cases hg

omit [DecidableEq τ] in
@[simp] theorem insert_get_next : (h.insert t a).get h.next = some (a, .inserted t) :=
  Function.update_self _ _ _

omit [DecidableEq τ] in
theorem insert_get_of_ne (hi : i ≠ h.next) : (h.insert t a).get i = h.get i :=
  Function.update_of_ne hi _ _

theorem step_insert : Step t (h.get i) ((h.insert t a).get i) := by
  by_cases hi : i = h.next
  · subst hi
    rw [h.fresh _ (Nat.le_refl _), insert_get_next]
    exact .insert a
  · rw [insert_get_of_ne hi]
    exact .stay

/-- A step on each row there is, is a step of the table. -/
theorem step_mapRows {f : Nat → α × Hold τ → Option (α × Hold τ)}
    (hf : ∀ b s, Step t (some (b, s)) (f i (b, s))) :
    Step t (h.get i) ((h.mapRows f).get i) := by
  rw [mapRows_get]
  cases h.get i with
  | none => exact .stay
  | some r => exact hf r.1 r.2

theorem step_lock : Step t (h.get i) ((h.lock t j).get i) := by
  apply step_mapRows
  intro b s
  dsimp only
  split
  · rename_i hc
    rw [hc.2]
    exact .lock b
  · exact .stay

theorem delete_get_self :
    (h.delete t i).get i = (h.get i).bind fun r =>
      if r.2 = .inserted t then none else some (r.1, .deleted t) := by
  simp [delete, mapRows_get]

theorem delete_get_of_ne (hij : i ≠ j) : (h.delete t j).get i = h.get i := by
  simp only [delete, mapRows_get, hij, if_false]
  cases h.get i <;> rfl

theorem step_commit : Step t (h.get i) ((h.commit t).get i) := by
  apply step_mapRows
  intro b s
  dsimp only
  split
  · rename_i own
    split
    · rename_i hs
      rw [hs]
      exact .gone b
    · exact .release b own
  · exact .stay

/-- Once its transaction has ended nobody has a row in hand. -/
theorem commit_released (hg : (h.commit t).get i = some (a, s)) : s.owner ≠ some t := by
  obtain ⟨⟨b, s'⟩, -, hf⟩ := Option.bind_eq_some_iff.mp hg
  dsimp only at hf
  split at hf
  · split at hf <;> cases hf
    exact nofun
  · rename_i hne
    cases hf
    exact hne

theorem rollback_released (hg : (h.rollback t).get i = some (a, s)) : s.owner ≠ some t := by
  obtain ⟨⟨b, s'⟩, -, hf⟩ := Option.bind_eq_some_iff.mp hg
  dsimp only at hf
  split at hf
  · split at hf <;> cases hf
    exact nofun
  · rename_i hne
    cases hf
    exact hne

theorem rollback_inserted (hg : h.get i = some (a, .inserted t)) :
    (h.rollback t).get i = none := by
  simp [rollback, mapRows_get, hg, Hold.owner]

theorem step_rollback : Step t (h.get i) ((h.rollback t).get i) := by
  apply step_mapRows
  intro b s
  dsimp only
  split
  · rename_i own
    split
    · rename_i hs
      rw [hs]
      exact .undo b
    · exact .release b own
  · exact .stay

theorem step_drop : Step t (h.get i) ((h.drop p).get i) := by
  apply step_mapRows
  intro b s
  dsimp only
  split
  · rename_i hc
    rw [hc.2]
    exact .drop b
  · exact .stay

/-- What a DELETE makes of a row it visits. -/
def afterDelete (t : τ) : Option (α × Hold τ) → Option (α × Hold τ)
  | none => none
  | some (a, s) => if s = .inserted t then none else some (a, .deleted t)

/-- A row is out of the reach of any later statement of `t`: gone, or deleted by `t`. -/
def Dead (t : τ) (r : Option (α × Hold τ)) : Prop :=
  ∀ a s, r = some (a, s) → s = .deleted t

theorem dead_afterDelete : Dead t (afterDelete t r) := by
  intro a s h
  cases r with
  | none => cases h
  | some q =>
    simp only [afterDelete] at h
    split at h
    · cases h
    · cases h; rfl

/-- One row after a DELETE went through a list: untouched, or visited. -/
theorem deleteScan_get (t : τ) (is : List Nat) (h : Heap τ α) (i : Nat) :
    (deleteScan t is h).2.get i = h.get i ∨
      (deleteScan t is h).2.get i = afterDelete t (h.get i) ∧
        ∀ b s, h.get i = some (b, s) → s.heldByOther t = false := by
  induction is generalizing h with
  | nil => exact Or.inl rfl
  | cons j js ih =>
    unfold deleteScan
    split
    · exact ih h
    · rename_i b s hj
      split
      · exact Or.inl rfl
      · rename_i free
        have free : s.heldByOther t = false := by simpa using free
        by_cases hij : i = j
        · subst hij
          have hd : (h.delete t i).get i = afterDelete t (h.get i) := by
            rw [delete_get_self, hj]
            rfl
          refine Or.inr ⟨?_, fun b' s' h' => by rw [hj] at h'; cases h'; exact free⟩
          rcases ih (h.delete t i) with e | ⟨e, _⟩
          · rw [e, hd]
          · rw [e, hd, hj]
            by_cases hs : s = .inserted t
            · simp [afterDelete, hs]
            · simp [afterDelete, hs]
        · have hd := delete_get_of_ne (t := t) (h := h) hij
          rw [← hd]
          exact ih (h.delete t j)

theorem deleteScan_gone (hg : h.get i = none) : (deleteScan t is h).2.get i = none := by
  rcases deleteScan_get t is h i with e | ⟨e, _⟩
  · rw [e, hg]
  · rw [e, hg]
    rfl

theorem step_deleteScan : Step t (h.get i) ((deleteScan t is h).2.get i) := by
  rcases deleteScan_get t is h i with e | ⟨e, free⟩
  · rw [e]; exact .stay
  · rw [e]
    cases hg : h.get i with
    | none => exact .stay
    | some r =>
      obtain ⟨b, s⟩ := r
      simp only [afterDelete]
      split
      · rename_i hs
        rw [hs]
        exact .undo b
      · rename_i hs
        exact .delete b (free b s hg) hs

@[simp] theorem deleteScan_next : (deleteScan t is h).2.next = h.next := by
  induction is generalizing h with
  | nil => rfl
  | cons j js ih =>
    unfold deleteScan
    split
    · exact ih
    · split
      · rfl
      · rw [ih]; rfl

/-- Each row of the list is dead afterwards, or still waits to be visited. -/
theorem deleteScan_dead (hi : i ∈ is) :
    i ∈ (deleteScan t is h).1 ∨ Dead t ((deleteScan t is h).2.get i) := by
  induction is generalizing h with
  | nil => cases hi
  | cons j js ih =>
    unfold deleteScan
    split
    · rename_i hj
      rcases List.mem_cons.mp hi with rfl | hmem
      · right
        rcases deleteScan_get t js h i with e | ⟨e, _⟩ <;> rw [e, hj] <;> intro _ _ h <;> cases h
      · exact ih hmem
    · rename_i b s hj
      split
      · exact Or.inl hi
      · rcases List.mem_cons.mp hi with rfl | hmem
        · right
          have hd : Dead t ((h.delete t i).get i) := by
            rw [delete_get_self, hj]
            exact dead_afterDelete (r := some (b, s))
          rcases deleteScan_get t js (h.delete t i) i with e | ⟨e, _⟩
          · rw [e]; exact hd
          · rw [e]; exact dead_afterDelete
        · exact ih hmem

theorem deleteScan_sub (hi : i ∈ (deleteScan t is h).1) : i ∈ is := by
  induction is generalizing h with
  | nil => exact hi
  | cons j js ih =>
    unfold deleteScan at hi
    split at hi
    · exact List.mem_cons_of_mem _ (ih hi)
    · split at hi
      · exact hi
      · exact List.mem_cons_of_mem _ (ih hi)

/-- The DELETE waits at a row that another transaction holds. -/
theorem deleteScan_held {is' : List Nat} (hi : (deleteScan t is h).1 = i :: is') :
    ∃ a s, (deleteScan t is h).2.get i = some (a, s) ∧ s.heldByOther t = true := by
  induction is generalizing h with
  | nil => cases hi
  | cons j js ih =>
    unfold deleteScan at hi ⊢
    split at hi
    · exact ih hi
    · rename_i b s hj
      split at hi
      · rename_i held
        cases hi
        exact ⟨b, s, by simp only [held, if_true, hj], held⟩
      · rename_i free
        simp only [if_neg free]
        exact ih hi

theorem lock_deleted {o : τ} (hg : (h.lock t j).get i = some (a, .deleted o)) :
    h.get i = some (a, .deleted o) := by
  simp only [lock, mapRows_get] at hg
  obtain ⟨⟨b, s⟩, hr, he⟩ := Option.bind_eq_some_iff.mp hg
  split at he <;> cases he
  exact hr

theorem drop_get (hg : (h.drop p).get i = some (a, s)) : h.get i = some (a, s) := by
  simp only [drop, mapRows_get] at hg
  obtain ⟨⟨b, s'⟩, hr, he⟩ := Option.bind_eq_some_iff.mp hg
  split at he <;> cases he
  exact hr

/-- A DELETE touches the rows of its list only. -/
theorem deleteScan_other (hi : i ∉ is) : (deleteScan t is h).2.get i = h.get i := by
  induction is generalizing h with
  | nil => rfl
  | cons j js ih =>
    obtain ⟨hij, hjs⟩ := not_or.mp (List.mem_cons.not.mp hi)
    unfold deleteScan
    split
    · exact ih hjs
    · split
      · rfl
      · rw [ih hjs, delete_get_of_ne hij]

theorem mem_snapshot : i ∈ h.snapshot t p ↔
    ∃ a s, h.get i = some (a, s) ∧ s.visible t = true ∧ p a = true := by
  simp only [snapshot, List.mem_filter, List.mem_range]
  constructor
  · rintro ⟨_, hi⟩
    split at hi
    · rename_i a s hg
      exact ⟨a, s, hg, by simpa using hi⟩
    · cases hi
  · rintro ⟨a, s, hg, hv, hp⟩
    exact ⟨lt_next hg, by simp [hg, hv, hp]⟩

/-- A DELETE leaves the rows it has deleted deleted. -/
theorem Dead.deleteScan (hd : Dead t (h.get i)) : Dead t ((deleteScan t is h).2.get i) := by
  rcases deleteScan_get t is h i with e | ⟨e, _⟩
  · rw [e]
    exact hd
  · rw [e]
    exact dead_afterDelete

/-- A DELETE deletes its transaction's locked row, or stops before it. -/
theorem deleteScan_locked (hg : h.get i = some (a, .locked t)) (hi : i ∈ is) :
    (deleteScan t is h).2.get i = some (a, .deleted t) ∨
      (deleteScan t is h).2.get i = some (a, .locked t) ∧ i ∈ (deleteScan t is h).1 := by
  rcases deleteScan_get t is h i with e | ⟨e, _⟩
  · rw [e, hg]
    rcases deleteScan_dead (t := t) (h := h) hi with hw | hd
    · exact Or.inr ⟨rfl, hw⟩
    · cases hd a _ (e.trans hg)
  · rw [e, hg]
    exact Or.inl rfl

theorem deleteScan_deleted (hg : h.get i = some (a, .deleted t)) :
    (deleteScan t is h).2.get i = some (a, .deleted t) := by
  rcases deleteScan_get t is h i with e | ⟨e, _⟩
  · rw [e, hg]
  · rw [e, hg]
    rfl

/-- A row that SELECT … FOR UPDATE returned is locked, or the transaction's own. -/
theorem lock_get (hg : h.get i = some (a, s)) (free : s.heldByOther t = false)
    (visible : s.visible t = true) (old : s ≠ .inserted t) :
    (h.lock t i).get i = some (a, .locked t) := by
  simp only [lock, mapRows_get, hg, Option.bind_some, true_and]
  cases s with
  | live => rfl
  | locked o =>
    have ho : o = t := by simpa [Hold.heldByOther, Hold.owner] using free
    rw [ho]
    rfl
  | inserted o =>
    have ho : o = t := by simpa [Hold.heldByOther, Hold.owner] using free
    exact absurd (congrArg Hold.inserted ho) old
  | deleted o =>
    have ho : o = t := by simpa [Hold.heldByOther, Hold.owner] using free
    simp [Hold.visible, ho] at visible

/-- COMMIT removes what its transaction has deleted. -/
theorem commit_dead (hd : Dead t (h.get i)) : (h.commit t).get i = none := by
  simp only [commit, mapRows_get]
  cases hg : h.get i with
  | none => rfl
  | some r =>
    obtain ⟨b, s⟩ := r
    cases hd b s hg
    simp [Hold.owner]

/-- What a transaction has deleted is out of the reach of the others. -/
theorem Dead.other {u : τ} (hd : Dead t r) (hs : Step u r r') (hne : t ≠ u)
    (hgone : r = none → r' = none) : Dead t r' := by
  cases hr : r with
  | none =>
    rw [hgone hr]
    exact fun _ _ h => nomatch h
  | some q =>
    obtain ⟨a, s⟩ := q
    cases hd a s hr
    rw [hs.other hr rfl hne]
    exact hd

end

/-! ## Committed rows -/

/-- The contents of a row that is in the table whether or not the open transactions commit. -/
def stored : Option (α × Hold τ) → Option α
  | none | some (_, .inserted _) => none
  | some (a, .live) | some (a, .locked _) | some (a, .deleted _) => some a

/-- The committed rows by their numbers. -/
def committed (h : Heap τ α) (i : Nat) : Option α :=
  stored (h.get i)

section
variable {t : τ} {i j : Nat} {a : α} {h : Heap τ α} {is : List Nat} {p : α → Bool}
  {r : Option (α × Hold τ)}

omit [DecidableEq τ] in
theorem stored_eq_some : stored r = some a ↔ ∃ s, r = some (a, s) ∧ ∀ o, s ≠ .inserted o := by
  unfold stored
  split <;> simp_all

omit [DecidableEq τ] in
theorem committed_insert : (h.insert t a).committed i = h.committed i := by
  unfold committed
  by_cases hi : i = h.next
  · subst hi
    rw [insert_get_next, h.fresh _ (Nat.le_refl _)]
    rfl
  · rw [insert_get_of_ne hi]

theorem committed_lock : (h.lock t j).committed i = h.committed i := by
  simp only [committed, lock, mapRows_get]
  cases hg : h.get i with
  | none => rfl
  | some r =>
    obtain ⟨b, s⟩ := r
    simp only [Option.bind_some]
    split
    · rename_i hc
      rw [hc.2]
      rfl
    · rfl

theorem committed_deleteScan : (deleteScan t is h).2.committed i = h.committed i := by
  unfold committed
  rcases deleteScan_get t is h i with e | ⟨e, free⟩
  · rw [e]
  · rw [e]
    cases hg : h.get i with
    | none => rfl
    | some r =>
      obtain ⟨b, s⟩ := r
      cases s with
      | live | locked | deleted => simp [afterDelete, stored]
      | inserted o =>
        have ho : o = t := by simpa [Hold.heldByOther, Hold.owner] using free b _ hg
        simp [afterDelete, stored, ho]

theorem committed_rollback : (h.rollback t).committed i = h.committed i := by
  simp only [committed, rollback, mapRows_get]
  cases hg : h.get i with
  | none => rfl
  | some r =>
    obtain ⟨b, s⟩ := r
    cases s with
    | live => rfl
    | locked o | deleted o =>
      by_cases ho : o = t <;> simp [Hold.owner, stored, ho]
    | inserted o =>
      by_cases ho : o = t <;> simp [Hold.owner, stored, ho]

theorem committed_drop :
    (h.drop p).committed i = none ∨ (h.drop p).committed i = h.committed i := by
  simp only [committed, drop, mapRows_get]
  cases hg : h.get i with
  | none => exact Or.inl rfl
  | some r =>
    obtain ⟨b, s⟩ := r
    simp only [Option.bind_some]
    split
    · exact Or.inl rfl
    · exact Or.inr rfl

/-- COMMIT publishes the rows its transaction has inserted and removes those it has deleted. -/
theorem committed_commit : (h.commit t).committed i =
    match h.get i with
    | some (a, .inserted o) => if o = t then some a else none
    | some (a, .deleted o) => if o = t then none else some a
    | r => stored r := by
  simp only [committed, commit, mapRows_get]
  cases hg : h.get i with
  | none => rfl
  | some r =>
    obtain ⟨b, s⟩ := r
    cases s with
    | live => rfl
    | locked o | inserted o | deleted o =>
      by_cases ho : o = t <;> simp [Hold.owner, stored, ho]

/-- Only the rows in hand of the committing transaction change. -/
theorem committed_commit_other (hi : ∀ a, h.get i ≠ some (a, .inserted t))
    (hd : ∀ a, h.get i ≠ some (a, .deleted t)) : (h.commit t).committed i = h.committed i := by
  rw [committed_commit]
  unfold committed
  cases hg : h.get i with
  | none => rfl
  | some r =>
    obtain ⟨b, s⟩ := r
    cases s with
    | live | locked => rfl
    | inserted o =>
      have ho : o ≠ t := fun ho => hi b (ho ▸ hg)
      simp [stored, ho]
    | deleted o =>
      have ho : o ≠ t := fun ho => hd b (ho ▸ hg)
      simp [stored, ho]

theorem committed_commit_inserted (hg : h.get i = some (a, .inserted t)) :
    (h.commit t).committed i = some a := by
  rw [committed_commit, hg]
  exact if_pos rfl

theorem committed_commit_deleted (hg : h.get i = some (a, .deleted t)) :
    (h.commit t).committed i = none := by
  rw [committed_commit, hg]
  exact if_pos rfl

end

end Heap
