/-!
# The pieces of a split

`List.splitOnP` cuts a list at its separators. The pieces are just the stretches
without a separator that have one, or an end of the list, on either side.
-/

namespace Words

variable {α : Type} {sep : α → Bool} {w pre post text : List α}

/-- A separator or the end of the list stands before and behind. -/
def Bounded (sep : α → Bool) (pre post : List α) : Prop :=
  (∀ c ∈ pre.getLast?, sep c = true) ∧ ∀ c ∈ post.head?, sep c = true

instance (sep : α → Bool) (pre post : List α) : Decidable (Bounded sep pre post) :=
  inferInstanceAs (Decidable ((∀ c ∈ pre.getLast?, _) ∧ ∀ c ∈ post.head?, _))

/-- A stretch of the list without separators, between separators. -/
def IsWord (sep : α → Bool) (text w : List α) : Prop :=
  ∃ pre post, text = pre ++ w ++ post ∧ (∀ c ∈ w, sep c = false) ∧ Bounded sep pre post

/-- A list without separators, or one cut at the first of them. -/
theorem cut (sep : α → Bool) (text : List α) :
    (∀ c ∈ text, sep c = false) ∨
      ∃ front c back, text = front ++ c :: back ∧ (∀ a ∈ front, sep a = false) ∧ sep c = true := by
  induction text with
  | nil => exact Or.inl (by simp)
  | cons a text ih =>
    by_cases ha : sep a = true
    · exact Or.inr ⟨[], a, text, rfl, by simp, ha⟩
    · rw [Bool.not_eq_true] at ha
      rcases ih with hnone | ⟨front, c, back, rfl, hfront, hc⟩
      · exact Or.inl (List.forall_mem_cons.mpr ⟨ha, hnone⟩)
      · exact Or.inr ⟨a :: front, c, back, rfl, List.forall_mem_cons.mpr ⟨ha, hfront⟩, hc⟩

theorem mem_split_of_isWord (h : IsWord sep text w) : w ∈ text.splitOnP sep := by
  obtain ⟨pre, post, rfl, hword, hpre, hpost⟩ := h
  have hback : w ∈ (w ++ post).splitOnP sep := by
    cases post with
    | nil =>
      rw [List.append_nil, List.splitOnP_eq_singleton hword]
      exact List.mem_singleton_self w
    | cons c post =>
      rw [List.splitOnP_append_cons_of_forall_mem hword c (hpost c (by simp))]
      exact List.mem_cons_self
  rcases List.eq_nil_or_concat pre with rfl | ⟨pre, c, rfl⟩
  · exact hback
  · have hc : sep c = true := hpre c (by simp)
    rw [List.concat_eq_append, List.append_assoc, List.append_assoc, List.singleton_append,
      List.splitOnP_append_cons _ _ hc]
    exact List.mem_append_right _ hback

theorem isWord_of_mem_split (h : w ∈ text.splitOnP sep) : IsWord sep text w := by
  generalize hn : text.length = n
  induction n using Nat.strongRecOn generalizing text with
  | ind n ih =>
    rcases cut sep text with hnone | ⟨front, c, back, rfl, hfront, hc⟩
    · rw [List.splitOnP_eq_singleton hnone, List.mem_singleton] at h
      subst h
      exact ⟨[], [], by simp, hnone, by simp, by simp⟩
    · rw [List.splitOnP_append_cons_of_forall_mem hfront c hc] at h
      rcases List.mem_cons.mp h with rfl | h
      · exact ⟨[], c :: back, by simp, hfront, by simp, by simpa using hc⟩
      · have hlt : back.length < n := by
          simp only [List.length_append, List.length_cons] at hn
          omega
        obtain ⟨pre, post, rfl, hword, hpre, hpost⟩ := ih back.length hlt h rfl
        refine ⟨front ++ c :: pre, post, by simp, hword, ?_, hpost⟩
        intro a ha
        rw [List.getLast?_append, List.getLast?_cons] at ha
        cases hlast : pre.getLast? with
        | none => simp_all
        | some b => simp_all

theorem mem_split_iff : w ∈ text.splitOnP sep ↔ IsWord sep text w :=
  ⟨isWord_of_mem_split, mem_split_of_isWord⟩

end Words
