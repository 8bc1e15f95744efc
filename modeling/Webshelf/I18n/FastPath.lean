import Webshelf.I18n.Format

/-!
# A message without arguments

`tf` returns a template without arguments as it is, its escapes included, so an
argument that the template does not have can change the message. It can also come up
in what the arguments with longer keys leave. `extra_argument_iff` says exactly when
neither happens.
-/

namespace Webshelf

open Replacing

namespace I18n

/-- Nothing that the slow path would write otherwise. -/
def Plain (template : List Char) : Prop :=
  ∀ pat ∈ [['\\', '{'], ['\\', '}'], escapedOpen, escapedClose], ¬ pat <:+: template

/-- The template when `key`, the last of the arguments, is put in. -/
def atTurn (template : List Char) (args : List Arg) (key : List Char) : List Char :=
  fill (sorted (args.filter fun arg => len key ≤ len arg.1)) (escaped template)

variable {template text key val : List Char} {args before after : List Arg} {arg : Arg} {n : Nat}

/-! ### The order of the replacements -/

theorem orderedInsert_append (h : ∀ a ∈ after, len a.1 ≤ len arg.1) :
    (before ++ after).orderedInsert (fun a b => len b.1 ≤ len a.1) arg =
      before.orderedInsert (fun a b => len b.1 ≤ len a.1) arg ++ after := by
  induction before with
  | nil =>
    cases after with
    | nil => rfl
    | cons a after => exact List.orderedInsert_cons_of_le _ _ (h a List.mem_cons_self)
  | cons b before ih =>
    rw [List.cons_append, List.orderedInsert_cons, List.orderedInsert_cons, ih]
    split <;> rfl

theorem orderedInsert_append_right (h : ∀ b ∈ before, ¬ len b.1 ≤ len arg.1) :
    (before ++ after).orderedInsert (fun a b => len b.1 ≤ len a.1) arg =
      before ++ after.orderedInsert (fun a b => len b.1 ≤ len a.1) arg := by
  induction before with
  | nil => rfl
  | cons b before ih =>
    rw [List.cons_append, List.orderedInsert_cons, if_neg (h b List.mem_cons_self),
      ih fun a ha => h a (List.mem_cons_of_mem b ha), List.cons_append]

/-- The long keys, then the short ones. -/
theorem sorted_split (n : Nat) (args : List Arg) :
    sorted args = sorted (args.filter fun arg => n ≤ len arg.1) ++
      sorted (args.filter fun arg => ¬ n ≤ len arg.1) := by
  induction args with
  | nil => rfl
  | cons arg args ih =>
    have hcons : sorted (arg :: args) =
        (sorted args).orderedInsert (fun a b => len b.1 ≤ len a.1) arg := rfl
    rw [hcons, ih]
    by_cases hlong : n ≤ len arg.1
    · rw [List.filter_cons_of_pos (by simpa using hlong),
        List.filter_cons_of_neg (by simpa using hlong)]
      apply orderedInsert_append
      intro a ha
      have hshort := (List.mem_filter.mp (mem_sorted.mp ha)).2
      simp only [decide_eq_true_eq] at hshort
      omega
    · rw [List.filter_cons_of_neg (by simpa using hlong),
        List.filter_cons_of_pos (by simpa using hlong)]
      apply orderedInsert_append_right
      intro b hb
      have hlong' := (List.mem_filter.mp (mem_sorted.mp hb)).2
      simp only [decide_eq_true_eq] at hlong'
      omega

/-- The last argument of the list comes last of the keys that are no longer than its own. -/
theorem sorted_append_singleton (h : ∀ a ∈ args, len arg.1 ≤ len a.1) :
    sorted (args ++ [arg]) = sorted args ++ [arg] := by
  induction args with
  | nil => rfl
  | cons a args ih =>
    have hrest := ih fun b hb => h b (List.mem_cons_of_mem a hb)
    change (sorted (args ++ [arg])).orderedInsert _ a = _
    rw [hrest]
    apply orderedInsert_append
    simpa using h a List.mem_cons_self

theorem fill_append : fill (before ++ after) text = fill after (fill before text) :=
  List.foldl_append

theorem fill_sorted (key : List Char) : fill (sorted args) (escaped template) =
    fill (sorted (args.filter fun arg => ¬ len key ≤ len arg.1)) (atTurn template args key) := by
  rw [sorted_split (len key), fill_append]
  rfl

/-- The extra argument is put in between the long keys and the short ones. -/
theorem fill_extra : fill (sorted (args ++ [(key, val)])) (escaped template) =
    fill (sorted (args.filter fun arg => ¬ len key ≤ len arg.1))
      (replace (placeholder key) val (atTurn template args key)) := by
  have hlong : (args ++ [(key, val)]).filter (fun arg => len key ≤ len arg.1) =
      args.filter (fun arg => len key ≤ len arg.1) ++ [(key, val)] := by
    simp
  have hshort : (args ++ [(key, val)]).filter (fun arg => ¬ len key ≤ len arg.1) =
      args.filter fun arg => ¬ len key ≤ len arg.1 := by
    simp
  rw [sorted_split (len key), hlong, hshort, sorted_append_singleton, fill_append, fill_append]
  · rfl
  · intro a ha
    simpa using (List.mem_filter.mp ha).2

/-! ### A long value is seen -/

theorem placeholder_ne_nil : placeholder key ≠ [] := List.cons_ne_nil _ _

theorem run_placeholder (hlen : (placeholder key).length ≤ n)
    (h : List.replicate n 'x' <:+: text) :
    List.replicate n 'x' <:+: replace (placeholder key) val text := by
  apply run_replace placeholder_ne_nil ?_ ?_ hlen h
  · simp [placeholder]
  · rw [placeholder, List.getLast?_append_of_ne_nil _ (List.cons_ne_nil '}' [])]
    decide

theorem run_fill (hlen : ∀ arg ∈ args, (placeholder arg.1).length ≤ n)
    (h : List.replicate n 'x' <:+: text) : List.replicate n 'x' <:+: fill args text := by
  induction args generalizing text with
  | nil => exact h
  | cons arg args ih =>
    apply ih
    · intro a ha
      exact hlen a (List.mem_cons_of_mem arg ha)
    · exact run_placeholder (hlen arg List.mem_cons_self) h

theorem run_restored (hlen : 20 ≤ n) (h : List.replicate n 'x' <:+: text) :
    List.replicate n 'x' <:+: restored text := by
  have hopen : escapedOpen.length ≤ 20 := by decide
  have hclose : escapedClose.length ≤ 20 := by decide
  apply run_replace (by decide) (by decide) (by decide) (hclose.trans hlen)
  exact run_replace (by decide) (by decide) (by decide) (hopen.trans hlen) h

/-- Where the extra key comes up, a long value makes the message as long. -/
theorem exists_longer (h : placeholder key <:+: atTurn template args key) (m : Nat) :
    ∃ val, m < (restored (fill (sorted (args ++ [(key, val)])) (escaped template))).length := by
  let bound := (args.map fun arg => placeholder arg.1).flatten.length
  have hbound : ∀ arg ∈ args, (placeholder arg.1).length ≤ bound := by
    intro arg harg
    have hmem : placeholder arg.1 ∈ args.map fun arg => placeholder arg.1 :=
      List.mem_map_of_mem harg
    exact (List.infix_of_mem_flatten hmem).length_le
  let long := List.replicate (m + bound + 20) 'x'
  have hin : long <:+: replace (placeholder key) long (atTurn template args key) :=
    infix_replace placeholder_ne_nil h
  have hshort : ∀ arg ∈ sorted (args.filter fun arg => ¬ len key ≤ len arg.1),
      (placeholder arg.1).length ≤ m + bound + 20 := by
    intro arg harg
    have hle := hbound arg (List.mem_of_mem_filter (mem_sorted.mp harg))
    omega
  have hrun := (run_restored (by omega) (run_fill hshort hin)).length_le
  rw [List.length_replicate] at hrun
  refine ⟨long, ?_⟩
  rw [fill_extra]
  omega

/-! ### The fast path -/

theorem countP_restored_le {p : Char → Bool} (hopen : ['{'].countP p ≤ escapedOpen.countP p)
    (hclose : ['}'].countP p ≤ escapedClose.countP p) :
    (restored text).countP p ≤ text.countP p := by
  have hfirst : (replace escapedOpen ['{'] text).countP p ≤ text.countP p :=
    countP_replace_le (by decide) hopen
  exact (countP_replace_le (by decide) hclose).trans hfirst

/-- The slow path leaves a template alone only where it has nothing to do. -/
theorem restored_escaped_iff : restored (escaped template) = template ↔ Plain template := by
  constructor
  · intro h
    -- an escape loses its backslash
    have hslashes : template.countP (· == '\\') ≤ (escaped template).countP (· == '\\') := by
      have hle : (restored (escaped template)).countP (· == '\\') ≤
          (escaped template).countP (· == '\\') := countP_restored_le (by decide) (by decide)
      rwa [h] at hle
    have hopen : ¬ ['\\', '{'] <:+: template := by
      have hfirst : (escaped template).countP (· == '\\') ≤
          (replace ['\\', '{'] escapedOpen template).countP (· == '\\') :=
        countP_replace_le (by decide) (by decide)
      exact not_infix_of_countP (by decide) (by decide) (hslashes.trans hfirst)
    rw [escaped, replace_of_absent hopen] at hslashes
    have hclose : ¬ ['\\', '}'] <:+: template :=
      not_infix_of_countP (by decide) (by decide) hslashes
    -- and a marker most of its letters
    rw [escaped, replace_of_absent hopen, replace_of_absent hclose] at h
    have hletters : template.countP (fun _ => true) ≤
        (restored template).countP fun _ => true := by
      rw [h]
    have hmarkOpen : ¬ escapedOpen <:+: template := by
      have hfirst : (restored template).countP (fun _ => true) ≤
          (replace escapedOpen ['{'] template).countP fun _ => true :=
        countP_replace_le (by decide) (by decide)
      exact not_infix_of_countP (by decide) (by decide) (hletters.trans hfirst)
    rw [restored, replace_of_absent hmarkOpen] at hletters
    have hmarkClose : ¬ escapedClose <:+: template :=
      not_infix_of_countP (by decide) (by decide) hletters
    simpa [Plain] using ⟨hopen, hclose, hmarkOpen, hmarkClose⟩
  · intro h
    have hopen := h ['\\', '{'] (by decide)
    have hclose := h ['\\', '}'] (by decide)
    have hmarkOpen := h escapedOpen (by decide)
    have hmarkClose := h escapedClose (by decide)
    rw [escaped, replace_of_absent hopen, replace_of_absent hclose, restored,
      replace_of_absent hmarkOpen, replace_of_absent hmarkClose]

/-- **What an extra argument changes.** Whatever its value, the message stays as it is exactly
when there is another argument or nothing for the slow path to do, and the key does not come up
at its turn. -/
theorem extra_argument_iff (template : List Char) (args : List Arg) (key : List Char) :
    (∀ val, tf template (args ++ [(key, val)]) = tf template args) ↔
      (args = [] → Plain template) ∧ ¬ placeholder key <:+: atTurn template args key := by
  have hslow : ∀ val, tf template (args ++ [(key, val)]) =
      restored (fill (sorted (args ++ [(key, val)])) (escaped template)) := by
    intro val
    rw [tf, List.isEmpty_eq_false_iff.mpr (by simp)]
    rfl
  have hsame : ¬ placeholder key <:+: atTurn template args key → ∀ val,
      fill (sorted (args ++ [(key, val)])) (escaped template) =
        fill (sorted args) (escaped template) := by
    intro hno val
    rw [fill_extra, replace_of_absent hno, ← fill_sorted]
  constructor
  · intro h
    have hno : ¬ placeholder key <:+: atTurn template args key := by
      intro hin
      obtain ⟨val, hlong⟩ := exists_longer hin (tf template args).length
      rw [← hslow, h val] at hlong
      exact Nat.lt_irrefl _ hlong
    refine ⟨?_, hno⟩
    rintro rfl
    have hempty := h []
    rw [hslow, hsame hno] at hempty
    exact restored_escaped_iff.mp hempty
  · rintro ⟨hplain, hno⟩ val
    rw [hslow, hsame hno]
    by_cases hargs : args = []
    · subst hargs
      exact restored_escaped_iff.mpr (hplain rfl)
    · rw [tf, List.isEmpty_eq_false_iff.mpr hargs]
      rfl

/-- An escaped brace and no argument. -/
theorem escape_kept_without_arguments : ¬ ∀ template args key val,
    ¬ placeholder key <:+: template → (∀ arg ∈ args, ¬ placeholder key <:+: arg.2) →
      tf template (args ++ [(key, val)]) = tf template args := by
  intro h
  have hescape := h "Codes: \\\x7b200\\\x7d".toList [] "status".toList "ok".toList (by decide)
    (fun arg harg => by cases harg)
  revert hescape
  decide +kernel

end I18n

end Webshelf
