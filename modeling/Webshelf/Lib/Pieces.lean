import Mathlib.Logic.Function.Basic
import Webshelf.Lib.Replace

/-!
# A chain of replacements as one filling of holes

A text is made of pieces, each with what it is written as. A pass that replaces what
one piece is written as fills this piece, if it meets the pattern nowhere else.

* `replace_flatMap`: one pass where the pattern begins in no other piece;
* `replace_flatMap_iff`: for a new text that begins with another letter than the pattern
  this is the only way to fill the piece and nothing else;
* `passes_flatMap`: a chain of such passes fills all its holes;
* `aligned_iff`: it is a chain of such passes only if each of them fills its hole;
* `flatMap_substitute`: taking the occurrences of some patterns as pieces keeps the text.
-/

namespace Replacing

variable {α ι : Type} [DecidableEq α] [DecidableEq ι]

/-- The pattern begins in no piece but the hole. -/
def Apart (pat : List α) (hole : ι) (f : ι → List α) : List ι → Prop
  | [] => True
  | piece :: pieces =>
    (piece = hole ∨ ∀ rest ∈ (f piece).tails, rest ≠ [] → ¬ pat <+: rest ++ pieces.flatMap f) ∧
      Apart pat hole f pieces

instance Apart.decidable (pat : List α) (hole : ι) (f : ι → List α) :
    (pieces : List ι) → Decidable (Apart pat hole f pieces)
  | [] => inferInstanceAs (Decidable True)
  | _ :: pieces =>
    have := Apart.decidable pat hole f pieces
    inferInstanceAs (Decidable (_ ∧ _))

/-- One pass after the other, each with a hole and what fills it. -/
def passes (f : ι → List α) (rounds : List (ι × List α)) (text : List α) : List α :=
  rounds.foldl (fun text round => replace (f round.1) round.2 text) text

/-- What the pieces are written as when the holes are filled. -/
def filled (f : ι → List α) (rounds : List (ι × List α)) : ι → List α :=
  rounds.foldl (fun f round => Function.update f round.1 round.2) f

/-- At each pass of a chain its pattern begins in no piece but its hole. -/
def Aligned (pieces : List ι) (f : ι → List α) : List (ι × List α) → Prop
  | [] => True
  | round :: rounds =>
    Apart (f round.1) round.1 f pieces ∧
      Aligned pieces (Function.update f round.1 round.2) rounds

instance Aligned.decidable (pieces : List ι) : (f : ι → List α) → (rounds : List (ι × List α)) →
    Decidable (Aligned pieces f rounds)
  | _, [] => inferInstanceAs (Decidable True)
  | f, round :: rounds =>
    have := Aligned.decidable pieces (Function.update f round.1 round.2) rounds
    inferInstanceAs (Decidable (_ ∧ _))

variable {pat new text u : List α} {f : ι → List α} {hole piece : ι}
  {pieces : List ι} {rounds : List (ι × List α)} {c x : α}

/-! ### One pass -/

/-- Where the pattern begins in no other piece, a pass fills the hole. -/
theorem replace_flatMap (h : Apart pat hole f pieces) (hpat : f hole = pat) (hne : pat ≠ []) :
    replace pat new (pieces.flatMap f) = pieces.flatMap (Function.update f hole new) := by
  induction pieces with
  | nil => rfl
  | cons piece pieces ih =>
    obtain ⟨hpiece, hpieces⟩ := h
    rw [List.flatMap_cons, List.flatMap_cons, ← ih hpieces]
    by_cases hhole : piece = hole
    · subst hhole
      rw [Function.update_self, hpat, replace_append hne]
    · rw [Function.update_of_ne hhole, replace_skip (hpiece.resolve_left hhole)]

/-- A pass that leaves a text in front of the rest has met no occurrence in it. -/
theorem skip_of_replace (hx : (c :: pat).head? ≠ (x :: new).head?) {rest' : List α}
    (h : replace (c :: pat) (x :: new) (u ++ text) = u ++ rest') :
    (∀ rest ∈ u.tails, rest ≠ [] → ¬ c :: pat <+: rest ++ text) ∧
      replace (c :: pat) (x :: new) text = rest' := by
  induction u with
  | nil =>
    refine ⟨?_, h⟩
    intro rest hrest hne
    exact absurd (by simpa using hrest) hne
  | cons a u ih =>
    by_cases hfit : c :: pat <+: a :: (u ++ text)
    · obtain ⟨tail, htail⟩ := hfit
      rw [List.cons_append, ← htail, replace_append (List.cons_ne_nil c pat)] at h
      have hxa : x = a := (List.cons.inj h).1
      have hca : c = a := (List.cons.inj htail).1
      exact absurd (by rw [hxa, hca]; rfl) hx
    · rw [List.cons_append, replace_cons hfit] at h
      obtain ⟨hskip, hrest⟩ := ih (List.cons.inj h).2
      refine ⟨?_, hrest⟩
      intro rest hmem hne
      rw [List.tails_cons] at hmem
      rcases List.mem_cons.mp hmem with rfl | hmem
      · exact hfit
      · exact hskip rest hmem hne

/-- **One pass fills one hole.** For a new text that begins with another letter than the pattern,
a pass fills the hole and changes nothing else only where the pattern begins in no other piece. -/
theorem replace_flatMap_iff (hf : f hole = c :: pat)
    (hx : (c :: pat).head? ≠ (x :: new).head?) :
    replace (c :: pat) (x :: new) (pieces.flatMap f) =
        pieces.flatMap (Function.update f hole (x :: new)) ↔
      Apart (c :: pat) hole f pieces := by
  constructor
  · intro h
    induction pieces with
    | nil => trivial
    | cons piece pieces ih =>
      rw [List.flatMap_cons, List.flatMap_cons] at h
      by_cases hhole : piece = hole
      · subst hhole
        rw [Function.update_self, hf, replace_append (List.cons_ne_nil c pat)] at h
        exact ⟨Or.inl rfl, ih (List.append_cancel_left h)⟩
      · rw [Function.update_of_ne hhole] at h
        obtain ⟨hskip, hrest⟩ := skip_of_replace hx h
        exact ⟨Or.inr hskip, ih hrest⟩
  · intro h
    exact replace_flatMap h hf (List.cons_ne_nil c pat)

/-! ### A chain of passes -/

omit [DecidableEq α] in
/-- What the other passes look for is written as before. -/
theorem update_other (h : hole ∉ rounds.map Prod.fst) {round : ι × List α}
    (hround : round ∈ rounds) :
    Function.update f hole new round.1 = f round.1 := by
  apply Function.update_of_ne
  rintro rfl
  exact h (List.mem_map_of_mem hround)

theorem passes_update (h : hole ∉ rounds.map Prod.fst) :
    passes (Function.update f hole new) rounds text = passes f rounds text := by
  unfold passes
  apply List.foldl_ext
  intro text round hround
  rw [update_other h hround]

/-- **A chain of passes fills its holes.** -/
theorem passes_flatMap (hholes : (rounds.map Prod.fst).Nodup)
    (hne : ∀ round ∈ rounds, f round.1 ≠ []) (h : Aligned pieces f rounds) :
    passes f rounds (pieces.flatMap f) = pieces.flatMap (filled f rounds) := by
  induction rounds generalizing f with
  | nil => rfl
  | cons round rounds ih =>
    obtain ⟨hapart, hrest⟩ := h
    rw [List.map_cons, List.nodup_cons] at hholes
    have hround : replace (f round.1) round.2 (pieces.flatMap f) =
        pieces.flatMap (Function.update f round.1 round.2) :=
      replace_flatMap hapart rfl (hne round List.mem_cons_self)
    have hne' : ∀ r ∈ rounds, Function.update f round.1 round.2 r.1 ≠ [] := by
      intro r hr
      rw [update_other hholes.1 hr]
      exact hne r (List.mem_cons_of_mem _ hr)
    have hchain := ih hholes.2 hne' hrest
    rw [passes_update hholes.1] at hchain
    change passes f rounds (replace (f round.1) round.2 (pieces.flatMap f)) = _
    rw [hround, hchain]
    rfl

/-- A new text of one letter shows whether a pass fills only its hole. -/
theorem pass_iff (hne : f hole ≠ []) (hx : (f hole).head? ≠ some x) :
    replace (f hole) [x] (pieces.flatMap f) = pieces.flatMap (Function.update f hole [x]) ↔
      Apart (f hole) hole f pieces := by
  obtain ⟨c, pat, hc⟩ := List.exists_cons_of_ne_nil hne
  rw [hc] at hx ⊢
  exact replace_flatMap_iff hc hx

/-- **The chain is aligned when each pass fills only its hole.** It is enough to look at one letter
that begins none of the patterns. -/
theorem aligned_iff (hholes : (rounds.map Prod.fst).Nodup)
    (hne : ∀ round ∈ rounds, f round.1 ≠ [])
    (hx : ∀ round ∈ rounds, (f round.1).head? ≠ some x) :
    Aligned pieces f rounds ↔ ∀ front round back, rounds = front ++ round :: back →
      replace (f round.1) [x] (pieces.flatMap (filled f front)) =
        pieces.flatMap (Function.update (filled f front) round.1 [x]) := by
  induction rounds generalizing f with
  | nil =>
    refine iff_of_true trivial ?_
    intro front round back hrounds
    exact absurd hrounds.symm (List.append_ne_nil_of_right_ne_nil _ (List.cons_ne_nil _ _))
  | cons first rounds ih =>
    rw [List.map_cons, List.nodup_cons] at hholes
    have hkept : ∀ round ∈ rounds, Function.update f first.1 first.2 round.1 = f round.1 :=
      fun round hround => update_other hholes.1 hround
    have hpass : _ ↔ Apart (f first.1) first.1 f pieces :=
      pass_iff (hne first List.mem_cons_self) (hx first List.mem_cons_self)
    have hne' : ∀ round ∈ rounds, Function.update f first.1 first.2 round.1 ≠ [] := by
      intro round hround
      rw [hkept round hround]
      exact hne round (List.mem_cons_of_mem _ hround)
    have hx' : ∀ round ∈ rounds, (Function.update f first.1 first.2 round.1).head? ≠ some x := by
      intro round hround
      rw [hkept round hround]
      exact hx round (List.mem_cons_of_mem _ hround)
    rw [Aligned, ← hpass, ih hholes.2 hne' hx']
    constructor
    · rintro ⟨hfirst, hlater⟩ front round back hrounds
      cases front with
      | nil =>
        cases hrounds
        exact hfirst
      | cons r front =>
        cases hrounds
        have hround := hlater front round back rfl
        rwa [hkept round (by simp)] at hround
    · intro h
      refine ⟨h [] first rounds rfl, ?_⟩
      rintro front round back rfl
      rw [hkept round (by simp)]
      exact h (first :: front) round back rfl

omit [DecidableEq α] in
/-- What is no hole is written as before. -/
theorem filled_of_notMem (h : piece ∉ rounds.map Prod.fst) : filled f rounds piece = f piece := by
  induction rounds generalizing f with
  | nil => rfl
  | cons round rounds ih =>
    rw [List.map_cons, List.mem_cons, not_or] at h
    exact (ih h.2).trans (Function.update_of_ne h.1 ..)

omit [DecidableEq α] in
/-- A hole is written as what fills it. -/
theorem filled_of_mem (hholes : (rounds.map Prod.fst).Nodup) (h : (hole, new) ∈ rounds) :
    filled f rounds hole = new := by
  induction rounds generalizing f with
  | nil => cases h
  | cons round rounds ih =>
    rw [List.map_cons, List.nodup_cons] at hholes
    rcases List.mem_cons.mp h with rfl | hmem
    · exact (filled_of_notMem hholes.1).trans (Function.update_self ..)
    · exact ih hholes.2 hmem

/-! ### Finding the holes -/

omit [DecidableEq ι] in
/-- What a pass writes comes from the text or from a rule. -/
theorem mem_substituteFrom {rules : List (Rule α)} {skip : Nat}
    (h : x ∈ substituteFrom rules skip text) : x ∈ text ∨ ∃ rule ∈ rules, x ∈ rule.2 := by
  fun_induction substituteFrom rules skip text with
  | case1 => exact Or.inl h
  | case2 skip c text ih => exact (ih h).imp_left (List.mem_cons_of_mem c)
  | case3 c text rule hfind ih =>
    rcases List.mem_append.mp h with hnew | hrest
    · exact Or.inr ⟨rule, List.mem_of_find?_eq_some hfind, hnew⟩
    · exact (ih hrest).imp_left (List.mem_cons_of_mem c)
  | case4 c text hfind ih =>
    rcases List.mem_cons.mp h with rfl | hrest
    · exact Or.inl List.mem_cons_self
    · exact (ih hrest).imp_left (List.mem_cons_of_mem c)

omit [DecidableEq α] in
/-- A pass that replaces patterns by what is written alike keeps the text. -/
theorem flatMap_substitute {rules : List (Rule ι)}
    (h : ∀ rule ∈ rules, rule.1 ≠ [] ∧ rule.2.flatMap f = rule.1.flatMap f) (pieces : List ι) :
    (substitute rules pieces).flatMap f = pieces.flatMap f := by
  induction pieces using pass_induction (fun rule hrule => (h rule hrule).1) with
  | nil => rfl
  | skip piece pieces hnone ih =>
    rw [substitute_cons hnone, List.flatMap_cons, List.flatMap_cons, ih]
  | here rule pieces hrule hsome ih =>
    obtain ⟨hne, htext⟩ := h rule hrule
    rw [substitute_append rule hne hsome, List.flatMap_append, List.flatMap_append, htext, ih]

end Replacing
