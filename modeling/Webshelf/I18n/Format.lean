import Mathlib.Data.List.Sort
import Webshelf.Lib.Pieces

/-!
# Formatted messages

`tf` of `i18n` puts its arguments into a template by one replacement after the
other, the longest key first, over a text in which the escaped braces are written
as two markers. A replacement goes over the whole text, the arguments that are
already in it included. As long as each of them meets its placeholder, or its
marker, only where the template has it, the message is the template with all
placeholders filled at once.
-/

namespace Webshelf

open Replacing

namespace I18n

/-- A key and the text of its value. -/
abbrev Arg := List Char × List Char

def escapedOpen : List Char := "__ESC_OPEN_7F3A__".toList

def escapedClose : List Char := "__ESC_CLOSE_7F3A__".toList

def placeholder (key : List Char) : List Char := '{' :: key ++ ['}']

/-- `str::len`, in bytes. -/
def len (key : List Char) : Nat := (String.ofList key).utf8ByteSize

/-- The arguments by `Reverse(len)`; `sort_by_key` is stable. -/
def sorted (args : List Arg) : List Arg := args.insertionSort fun a b => len b.1 ≤ len a.1

/-- The template with markers for its escaped braces. -/
def escaped (template : List Char) : List Char :=
  replace ['\\', '}'] escapedClose (replace ['\\', '{'] escapedOpen template)

def fill (args : List Arg) (result : List Char) : List Char :=
  args.foldl (fun result arg => replace (placeholder arg.1) arg.2 result) result

/-- The markers as braces. -/
def restored (result : List Char) : List Char :=
  replace escapedClose ['}'] (replace escapedOpen ['{'] result)

def tf (template : List Char) (args : List Arg) : List Char :=
  if args.isEmpty then template else restored (fill (sorted args) (escaped template))

/-! ### All at once -/

/-- What a template consists of. -/
inductive Piece where
  | char (c : Char)
  | openBrace
  | closeBrace
  | hole (key val : List Char)
  deriving DecidableEq

/-- The characters of a template and its escaped braces. -/
def tokens : List Char → List Piece
  | '\\' :: '{' :: template => .openBrace :: tokens template
  | '\\' :: '}' :: template => .closeBrace :: tokens template
  | c :: template => .char c :: tokens template
  | [] => []

/-- One pass from left to right finds the placeholders, at each place the longest. -/
def pieces (template : List Char) (args : List Arg) : List Piece :=
  substitute ((sorted args).map fun arg =>
    ((placeholder arg.1).map Piece.char, [Piece.hole arg.1 arg.2])) (tokens template)

/-- What a piece of the template stands for. -/
def Piece.text : Piece → List Char
  | char c => [c]
  | openBrace => ['{']
  | closeBrace => ['}']
  | hole _ val => val

/-- Every placeholder by its argument, every escaped brace by a brace, and all else as it is. -/
def simultaneous (template : List Char) (args : List Arg) : List Char :=
  (pieces template args).flatMap Piece.text

/-! ### One after the other -/

/-- What a piece is written as in the template. -/
def Piece.raw : Piece → List Char
  | char c => [c]
  | openBrace => ['\\', '{']
  | closeBrace => ['\\', '}']
  | hole key _ => placeholder key

/-- What it is written as before the first argument is put in. -/
def Piece.marked : Piece → List Char
  | char c => [c]
  | openBrace => escapedOpen
  | closeBrace => escapedClose
  | hole key _ => placeholder key

/-- The replacements of `tf`, each with the piece it is for and what this piece becomes. -/
def rounds (args : List Arg) : List (Piece × List Char) :=
  (sorted args).map (fun arg => (Piece.hole arg.1 arg.2, arg.2)) ++
    [(.openBrace, ['{']), (.closeBrace, ['}'])]

variable {template key val : List Char} {args : List Arg} {f : Piece → List Char} {b : Char}
  {hole : Piece}

theorem mem_sorted {arg : Arg} : arg ∈ sorted args ↔ arg ∈ args := List.mem_insertionSort _

theorem tf_eq_passes (h : args ≠ []) :
    tf template args = passes Piece.marked (rounds args) (escaped template) := by
  rw [tf, List.isEmpty_eq_false_iff.mpr h, passes, rounds, List.foldl_append, List.foldl_map]
  rfl

/-- No brace begins what follows, if none begins the template there. -/
theorem head_tokens (hchar : ∀ c, f (.char c) = [c])
    (hbrace : ∀ p ∈ [Piece.openBrace, .closeBrace], (f p).head? ∈ [some '\\', some '_'])
    (hb : b ∈ ['{', '}']) (h : template.head? ≠ some b) :
    ((tokens template).flatMap f).head? ≠ some b := by
  have hne : ∀ p ∈ [Piece.openBrace, .closeBrace], (f p).head? ≠ none ∧ (f p).head? ≠ some b := by
    intro p hp
    have hmem := hbrace p hp
    simp only [List.mem_cons, List.not_mem_nil, or_false] at hmem hb
    rcases hmem with hmem | hmem <;> rcases hb with rfl | rfl <;> rw [hmem] <;> decide
  fun_cases tokens template with
  | case1 template =>
    obtain ⟨hsome, hother⟩ := hne .openBrace (by decide)
    rw [List.flatMap_cons, List.head?_append_of_ne_nil _ (by simpa using hsome)]
    exact hother
  | case2 template =>
    obtain ⟨hsome, hother⟩ := hne .closeBrace (by decide)
    rw [List.flatMap_cons, List.head?_append_of_ne_nil _ (by simpa using hsome)]
    exact hother
  | case3 c template => simpa [hchar] using h
  | case4 => simp

/-- An escape begins only where the template has one. -/
theorem apart_tokens (hchar : ∀ c, f (.char c) = [c])
    (hbrace : ∀ p ∈ [Piece.openBrace, .closeBrace], (f p).head? ∈ [some '\\', some '_'])
    (hb : b ∈ ['{', '}'])
    (hsafe : ∀ p ∈ [Piece.openBrace, .closeBrace], p = hole ∨
      ∀ rest ∈ (f p).tails, rest ≠ [] → ∀ text, ¬ ['\\', b] <+: rest ++ text) :
    Apart ['\\', b] hole f (tokens template) := by
  fun_induction tokens template with
  | case1 template ih =>
    refine ⟨(hsafe .openBrace (by decide)).imp_right ?_, ih⟩
    intro h rest hrest hne
    exact h rest hrest hne _
  | case2 template ih =>
    refine ⟨(hsafe .closeBrace (by decide)).imp_right ?_, ih⟩
    intro h rest hrest hne
    exact h rest hrest hne _
  | case3 c template hopen hclose ih =>
    refine ⟨Or.inr ?_, ih⟩
    intro rest hrest hne hfit
    rw [hchar] at hrest
    have hself : rest = [c] := by simpa [hne] using hrest
    subst hself
    rw [List.singleton_append, List.cons_prefix_cons] at hfit
    obtain ⟨rfl, tail, htail⟩ := hfit
    have hhead : template.head? ≠ some b := by
      intro hhead
      obtain ⟨template, rfl⟩ := List.head?_eq_some_iff.mp hhead
      simp only [List.mem_cons, List.not_mem_nil, or_false] at hb
      rcases hb with rfl | rfl
      · exact hopen template rfl rfl
      · exact hclose template rfl rfl
    apply head_tokens hchar hbrace hb hhead
    rw [← htail]
    rfl
  | case4 => exact trivial

/-- The markers stand where the template has its escapes. -/
theorem escaped_eq (template : List Char) :
    escaped template = (tokens template).flatMap Piece.marked := by
  let half := Function.update Piece.raw .openBrace escapedOpen
  have hraw : template = (tokens template).flatMap Piece.raw := by
    fun_induction tokens template with
    | case1 template ih | case2 template ih | case3 _ template _ _ ih =>
      rw [List.flatMap_cons, ← ih]
      rfl
    | case4 => rfl
  have hmarked : (tokens template).flatMap (Function.update half .closeBrace escapedClose) =
      (tokens template).flatMap Piece.marked := by
    congr 1
    funext piece
    cases piece <;> rfl
  have hopen : Apart ['\\', '{'] .openBrace Piece.raw (tokens template) := by
    apply apart_tokens (fun _ => rfl) (by decide) (by decide)
    intro p hp
    simp only [List.mem_cons, List.not_mem_nil, or_false] at hp
    rcases hp with rfl | rfl
    · exact Or.inl rfl
    · right
      simp [Piece.raw]
  have hclose : Apart ['\\', '}'] .closeBrace half (tokens template) := by
    apply apart_tokens (fun _ => rfl) (by decide) (by decide)
    intro p hp
    simp only [List.mem_cons, List.not_mem_nil, or_false] at hp
    rcases hp with rfl | rfl
    · right
      exact not_prefix_of_notMem (by decide)
    · exact Or.inl rfl
  have hfirst : replace ['\\', '{'] escapedOpen ((tokens template).flatMap Piece.raw) =
      (tokens template).flatMap half :=
    replace_flatMap hopen rfl (List.cons_ne_nil '\\' ['{'])
  have hsecond : replace ['\\', '}'] escapedClose ((tokens template).flatMap half) =
      (tokens template).flatMap (Function.update half .closeBrace escapedClose) :=
    replace_flatMap hclose rfl (List.cons_ne_nil '\\' ['}'])
  rw [← hmarked, ← hsecond, ← hfirst, ← hraw]
  rfl

/-- Before the first argument the placeholders are written out. -/
theorem escaped_eq_pieces (template : List Char) (args : List Arg) :
    escaped template = (pieces template args).flatMap Piece.marked := by
  rw [escaped_eq, pieces, flatMap_substitute]
  intro rule hrule
  obtain ⟨arg, -, rfl⟩ := List.mem_map.mp hrule
  refine ⟨by simp [placeholder], ?_⟩
  rw [List.flatMap_singleton, List.flatMap_map]
  exact (List.flatMap_singleton' _).symm

theorem hole_notMem_tokens : Piece.hole key val ∉ tokens template := by
  intro h
  fun_induction tokens template with
  | case1 template ih | case2 template ih | case3 _ template _ _ ih =>
    rcases List.mem_cons.mp h with heq | hrest
    · cases heq
    · exact ih hrest
  | case4 => cases h

/-- The holes are for arguments. -/
theorem hole_of_mem_pieces (h : Piece.hole key val ∈ pieces template args) :
    (key, val) ∈ args := by
  rcases mem_substituteFrom h with htoken | ⟨rule, hrule, hmem⟩
  · exact absurd htoken hole_notMem_tokens
  · obtain ⟨arg, harg, rfl⟩ := List.mem_map.mp hrule
    cases List.mem_singleton.mp hmem
    exact mem_sorted.mp harg

theorem holes_rounds : (rounds args).map Prod.fst =
    (sorted args).map (fun arg => Piece.hole arg.1 arg.2) ++ [.openBrace, .closeBrace] := by
  rw [rounds, List.map_append, List.map_map]
  rfl

/-- Every replacement has a piece of its own. -/
theorem nodup_rounds (hkeys : (args.map Prod.fst).Nodup) :
    ((rounds args).map Prod.fst).Nodup := by
  have hargs : (sorted args).Nodup :=
    (List.perm_insertionSort _ args).nodup_iff.mpr (List.Nodup.of_map _ hkeys)
  have hholes : ((sorted args).map fun arg => Piece.hole arg.1 arg.2).Nodup := by
    apply hargs.map
    intro a b hab
    injection hab with hkey hval
    exact Prod.ext hkey hval
  rw [holes_rounds, List.nodup_append]
  refine ⟨hholes, by decide, ?_⟩
  rintro p hp q hq rfl
  obtain ⟨arg, -, rfl⟩ := List.mem_map.mp hp
  exact absurd hq (by simp)

/-- After the last replacement every piece has become what it stands for. -/
theorem filled_rounds (hkeys : (args.map Prod.fst).Nodup) :
    ∀ piece ∈ pieces template args, filled Piece.marked (rounds args) piece = piece.text := by
  intro piece hpiece
  have hnodup := nodup_rounds hkeys
  cases piece with
  | char c =>
    rw [filled_of_notMem]
    · rfl
    · rw [holes_rounds]
      simp
  | openBrace => exact filled_of_mem hnodup (List.mem_append_right _ List.mem_cons_self)
  | closeBrace => exact filled_of_mem hnodup (List.mem_append_right _ (by decide))
  | hole key val =>
    have harg := mem_sorted.mpr (hole_of_mem_pieces hpiece)
    apply filled_of_mem hnodup
    apply List.mem_append_left
    exact List.mem_map.mpr ⟨(key, val), harg, rfl⟩

theorem marked_ne_nil {round : Piece × List Char} (h : round ∈ rounds args) :
    round.1.marked ≠ [] ∧ round.1.marked.head? ≠ some 'x' := by
  rw [rounds, List.mem_append, List.mem_map] at h
  rcases h with ⟨arg, -, rfl⟩ | hbrace
  · exact ⟨List.cons_ne_nil _ _, by simp [Piece.marked, placeholder]⟩
  · simp only [List.mem_cons, List.not_mem_nil, or_false] at hbrace
    rcases hbrace with rfl | rfl <;> decide

/-- The replacements are aligned exactly when each of them, at its turn, would put an `x` in the
places of the template and nowhere else. -/
theorem aligned_iff_turns (hkeys : (args.map Prod.fst).Nodup) :
    Aligned (pieces template args) Piece.marked (rounds args) ↔
      ∀ front round back, rounds args = front ++ round :: back →
        replace round.1.marked ['x'] ((pieces template args).flatMap (filled Piece.marked front)) =
          (pieces template args).flatMap
            (Function.update (filled Piece.marked front) round.1 ['x']) :=
  aligned_iff (nodup_rounds hkeys) (fun _ h => (marked_ne_nil h).1) fun _ h => (marked_ne_nil h).2

/-- **Placeholders are filled at once.** Where each replacement meets its placeholder, or its
marker, only where the template has it, the values are inserted as they are. -/
theorem filled_at_once (hargs : args ≠ []) (hkeys : (args.map Prod.fst).Nodup)
    (h : Aligned (pieces template args) Piece.marked (rounds args)) :
    tf template args = simultaneous template args := by
  rw [tf_eq_passes hargs, escaped_eq_pieces template args,
    passes_flatMap (nodup_rounds hkeys) (fun _ hround => (marked_ne_nil hround).1) h]
  exact List.flatMap_congr (filled_rounds hkeys)

example : tf "Status {status}: \\\x7b200, 404\\\x7d".toList [("status".toList, "code".toList)] =
    "Status code: {200, 404}".toList := by decide +kernel

/-- The question before an account is deleted. -/
def confirmDelete : List Char :=
  "Are you sure to delete {name} ({id})? This action cannot be undone.".toList

def deleting (name id : String) : List Arg :=
  [("name".toList, name.toList), ("id".toList, id.toList)]

theorem filled_at_once_delete :
    tf confirmDelete (deleting "Ada" "7") = simultaneous confirmDelete (deleting "Ada" "7") :=
  filled_at_once (by decide) (by decide +kernel) (by decide +kernel)

/-- A user named `{id}`. -/
theorem name_filled_again : ¬ ∀ template args, args ≠ [] → (args.map Prod.fst).Nodup →
    tf template args = simultaneous template args := by
  intro h
  have hname := h confirmDelete (deleting "{id}" "7") (by decide) (by decide +kernel)
  revert hname
  decide +kernel

end I18n

end Webshelf
