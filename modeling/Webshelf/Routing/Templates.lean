import Webshelf.Routing.Router

/-!
# Does the routing depend on bound values?

Both predicates examine the rendered text, in which the bound values stand as SQL literals. A
value that is a text may hold a locking phrase, a keyword or brackets.
-/

namespace Webshelf

namespace Routing

/-- How a literal may start. -/
def literalStarts : List String :=
  ["'", "E'", "B'", "X'", "N'", "U&'", "NULL", "TRUE", "FALSE", "ARRAY", "-", "+", ".",
    "0", "1", "2", "3", "4", "5", "6", "7", "8", "9"]

/-- A character that needs no escape in a literal. -/
def isPlain (c : Char) : Bool := c.isAlphanum || [' ', '(', ')'].contains c

def quote (s : List Char) : List Char := '\'' :: (s ++ ['\''])

/-- How `Statement::to_string` writes values: as SQL literals, and a text that needs no escapes
as it is, in quotes. -/
structure SqlLiterals {Value : Type} (literal : Value → List Char) : Prop where
  starts : ∀ v, ∃ start ∈ literalStarts, start.toList <+: literal v
  quoted : ∀ s : List Char, (∀ c ∈ s, isPlain c = true) → ∃ v, literal v = quote s

/-- Two statements take the same way, on any router. -/
structure SameRouting {Value : Type} (literal : Value → List Char) (s t : Statement Value) :
    Prop where
  write : isWriteStatement literal s = isWriteStatement literal t
  locking : isLockingSelect literal s = isLockingSelect literal t
  queryOne : ∀ env (r : AutoRouter), r.queryOne literal env s = r.queryOne literal env t
  queryAll : ∀ env (r : AutoRouter), r.queryAll literal env s = r.queryAll literal env t

/-- A locking phrase stands in the text of the template itself. -/
def Template.Locks (sql : Template) : Prop :=
  Locking sql.start ∨ ∃ place ∈ sql.rest, Locking place.2

/-- The text in front of the first place decides whether it is a write. -/
def Template.Decided (sql : Template) : Prop :=
  let up := toAsciiUppercase (trimStart sql.start)
  Detected up ∨ ¬ "WITH ".toList <+: up

variable {Value : Type} {literal : Value → List Char} {s t : Statement Value} {sql : Template}
  {text rest up m : List Char} {c : Char} {v : Value}

theorem sameRouting_iff : SameRouting literal s t ↔
    (Detected (toAsciiUppercase (trimStart (s.text literal))) ↔
      Detected (toAsciiUppercase (trimStart (t.text literal)))) ∧
    (Locking (s.text literal) ↔ Locking (t.text literal)) := by
  rw [← isWriteStatement_iff, ← isWriteStatement_iff, ← isLockingSelect_iff,
    ← isLockingSelect_iff, ← Bool.eq_iff_iff, ← Bool.eq_iff_iff]
  constructor
  · intro h
    exact ⟨h.write, h.locking⟩
  · rintro ⟨hwrite, hlocking⟩
    have hroute (env) (r : AutoRouter) : r.route literal env s = r.route literal env t := by
      unfold AutoRouter.route
      rw [hwrite, hlocking]
    exact ⟨hwrite, hlocking, hroute, hroute⟩

/-! ### Texts and literals -/

theorem uppercase_append : toAsciiUppercase (text ++ rest) =
    toAsciiUppercase text ++ toAsciiUppercase rest :=
  List.map_append

/-- A literal, in upper case, and what follows it. -/
def LiteralAt (m : List Char) : Prop := ∃ start ∈ literalStarts, start.toList <+: m

theorem literalAt_quote {s : List Char} : LiteralAt (quote s ++ m) :=
  ⟨"'", by decide, ⟨s ++ ['\''] ++ m, rfl⟩⟩

theorem literalAt_uppercase (h : LiteralAt m) : LiteralAt (toAsciiUppercase m) := by
  obtain ⟨start, hstart, t, rfl⟩ := h
  have hupper : ∀ start ∈ literalStarts, toAsciiUppercase start.toList = start.toList := by decide
  refine ⟨start, hstart, toAsciiUppercase t, ?_⟩
  rw [uppercase_append, hupper start hstart]

/-- No literal goes on with a keyword that the text in front of it has begun. -/
theorem keyword_not_across {k : String} (hk : k ∈ "WITH " :: writeKeywords) (hm : LiteralAt m) :
    k.toList <+: text ++ m ↔ k.toList <+: text := by
  have hapart : ∀ k ∈ "WITH " :: writeKeywords, ∀ e ∈ k.toList.tails, e ≠ [] →
      ∀ start ∈ literalStarts, ¬ e <+: start.toList ∧ ¬ start.toList <+: e := by decide
  refine ⟨fun h => ?_, fun h => h.trans (List.prefix_append text m)⟩
  rcases List.prefix_or_prefix_of_prefix h (List.prefix_append text m) with h' | ⟨e, he⟩
  · exact h'
  · by_cases hnil : e = []
    · rw [← he, hnil, List.append_nil]
    · exfalso
      obtain ⟨start, hstart, hprefix⟩ := hm
      rw [← he, List.prefix_append_right_inj] at h
      have hsuffix : e ∈ k.toList.tails := (List.mem_tails _ _).mpr ⟨text, he⟩
      obtain ⟨h₁, h₂⟩ := hapart k hk e hsuffix hnil start hstart
      rcases List.prefix_or_prefix_of_prefix h hprefix with h' | h'
      · exact h₁ h'
      · exact h₂ h'

theorem keywordAt_append (hm : LiteralAt m) : KeywordAt (text ++ m) ↔ KeywordAt text := by
  rw [keywordAt_iff, keywordAt_iff]
  constructor
  · rintro ⟨k, hk, h⟩
    exact ⟨k, hk, (keyword_not_across (List.mem_cons_of_mem _ hk) hm).mp h⟩
  · rintro ⟨k, hk, h⟩
    exact ⟨k, hk, (keyword_not_across (List.mem_cons_of_mem _ hk) hm).mpr h⟩

theorem trimStart_append (hm : LiteralAt m) : trimStart (text ++ m) = trimStart text ++ m := by
  have hstay : trimStart m = m := by
    have hall : ∀ start ∈ literalStarts, start.toList.head?.any (!isWhitespace ·) = true := by
      decide
    obtain ⟨start, hstart, t, rfl⟩ := hm
    have hhead := hall start hstart
    cases hlist : start.toList with
    | nil => simp [hlist] at hhead
    | cons c e => exact List.dropWhile_cons_of_neg (by simpa [hlist] using hhead)
  unfold trimStart at hstay ⊢
  rw [List.dropWhile_append, hstay]
  split
  · rename_i h
    rw [List.isEmpty_iff.mp h]
    rfl
  · rfl

theorem locking_append_quote :
    Locking (text ++ '\'' :: rest) ↔ Locking text ∨ Locking rest := by
  have hquote : ∀ phrase ∈ lockingPhrases, '\'' ∉ phrase.toList := by decide
  have hup : toAsciiUppercase (text ++ '\'' :: rest) =
      toAsciiUppercase text ++ '\'' :: toAsciiUppercase rest :=
    uppercase_append
  simp only [Locking, hup]
  constructor
  · rintro ⟨phrase, hphrase, h⟩
    rcases (infix_append_cons (hquote phrase hphrase)).mp h with h | h
    · exact .inl ⟨phrase, hphrase, h⟩
    · exact .inr ⟨phrase, hphrase, h⟩
  · rintro (⟨phrase, hphrase, h⟩ | ⟨phrase, hphrase, h⟩)
    · exact ⟨phrase, hphrase, (infix_append_cons (hquote phrase hphrase)).mpr (.inl h)⟩
    · exact ⟨phrase, hphrase, (infix_append_cons (hquote phrase hphrase)).mpr (.inr h)⟩

theorem Locking.infix (h : Locking text) (hin : text <:+: m) : Locking m := by
  obtain ⟨phrase, hphrase, h⟩ := h
  exact ⟨phrase, hphrase, h.trans (hin.map Char.toUpper)⟩

/-! ### Rendered texts -/

theorem text_eq_start (h : s.sql.rest = []) : s.text literal = s.sql.start := by
  rw [Statement.text, h]
  exact List.append_nil _

/-- After the start of the template comes a literal. -/
theorem exists_text (hlit : SqlLiterals literal) (h : s.sql.rest ≠ []) :
    ∃ m, LiteralAt m ∧ s.text literal = s.sql.start ++ m := by
  refine ⟨_, ?_, rfl⟩
  cases hrest : s.sql.rest with
  | nil => exact absurd hrest h
  | cons place rest =>
    have hbound := s.bound place (by simp [hrest])
    obtain ⟨start, hstart, hprefix⟩ := hlit.starts s.values[place.1]
    refine ⟨start, hstart, hprefix.trans ?_⟩
    rw [List.flatMap_cons, List.getElem?_eq_getElem hbound, List.append_assoc]
    exact List.prefix_append _ _

/-- The text of every place is part of the rendered text. -/
theorem infix_text {place : Nat × List Char} (h : place ∈ s.sql.rest) :
    place.2 <:+: s.text literal := by
  have hpiece : place.2 <:+: s.values[place.1]?.elim [] literal ++ place.2 :=
    (List.suffix_append _ _).isInfix
  refine hpiece.trans (List.IsInfix.trans ?_ (List.suffix_append s.sql.start _).isInfix)
  exact List.infix_of_mem_flatten (List.mem_map.mpr ⟨place, h, rfl⟩)

theorem locking_of_locks (h : s.sql.Locks) : Locking (s.text literal) := by
  rcases h with h | ⟨place, hplace, h⟩
  · exact h.infix (List.prefix_append _ _).isInfix
  · exact h.infix (infix_text hplace)

/-- Where the start decides, the rest of the text is not needed. -/
theorem detected_of_decided (hlit : SqlLiterals literal) (h : s.sql.Decided) :
    Detected (toAsciiUppercase (trimStart (s.text literal))) ↔
      Detected (toAsciiUppercase (trimStart s.sql.start)) := by
  by_cases hrest : s.sql.rest = []
  · rw [text_eq_start hrest]
  · obtain ⟨m, hm, htext⟩ := exists_text hlit hrest
    rw [htext, trimStart_append hm, uppercase_append]
    have hup := literalAt_uppercase hm
    rw [Template.Decided] at h
    generalize toAsciiUppercase (trimStart s.sql.start) = up at h
    generalize toAsciiUppercase m = m at hup
    constructor
    · rintro (hk | ⟨rest, hwith, _⟩)
      · exact .inl ((keywordAt_append hup).mp hk)
      · refine h.resolve_right fun hnot => hnot ?_
        rw [← keyword_not_across List.mem_cons_self hup]
        exact ⟨rest, hwith.symm⟩
    · rintro (hk | ⟨rest, rfl, a, b, rfl, ha, hb⟩)
      · exact .inl ((keywordAt_append hup).mpr hk)
      · exact .inr ⟨a ++ b ++ m, List.append_assoc _ _ _, a, b ++ m, List.append_assoc _ _ _, ha,
          (keywordAt_append hup).mpr hb⟩

/-! ### Values that change the way -/

/-- The text of a template with one value in every place. -/
def Template.filled (sql : Template) (value : List Char) : List Char :=
  sql.start ++ sql.rest.flatMap fun place => value ++ place.2

theorem exists_filled (v : Value) :
    ∃ s : Statement Value, s.sql = sql ∧ s.text literal = sql.filled (literal v) := by
  have hbound : ∃ n, ∀ place ∈ sql.rest, place.1 < n := by
    induction sql.rest with
    | nil => exact ⟨0, by simp⟩
    | cons place rest ih =>
      obtain ⟨n, hn⟩ := ih
      refine ⟨max (place.1 + 1) n, ?_⟩
      intro p hp
      rcases List.mem_cons.mp hp with rfl | hp
      · omega
      · have := hn p hp
        omega
  obtain ⟨n, hn⟩ := hbound
  refine ⟨⟨sql, List.replicate n v, by simpa using hn⟩, rfl, ?_⟩
  rw [Statement.text, Template.filled]
  refine congrArg (sql.start ++ ·) (List.flatMap_congr fun place hplace => ?_)
  simp [hn place hplace]

theorem filled_cons {place : Nat × List Char} {rest : List (Nat × List Char)}
    {value : List Char} (h : sql.rest = place :: rest) :
    ∃ tail, sql.filled value = sql.start ++ (value ++ tail) := by
  refine ⟨place.2 ++ rest.flatMap fun place => value ++ place.2, ?_⟩
  rw [Template.filled, h, List.flatMap_cons, List.append_assoc]

/-- A text that is a locking phrase. -/
theorem locking_filled (h : sql.rest ≠ []) :
    Locking (sql.filled (quote "FOR UPDATE".toList)) := by
  obtain ⟨place, rest, hrest⟩ := List.exists_cons_of_ne_nil h
  obtain ⟨tail, htail⟩ := @filled_cons sql place rest (quote "FOR UPDATE".toList) hrest
  have hphrase : Locking "FOR UPDATE".toList := by
    rw [Locking]
    decide
  rw [htail]
  refine hphrase.infix ⟨sql.start ++ ['\''], '\'' :: tail, ?_⟩
  simp only [quote, List.append_assoc, List.cons_append, List.nil_append]

/-- The empty text adds nothing. -/
theorem locking_filled_empty : Locking (sql.filled (quote [])) ↔ sql.Locks := by
  have hnil : ¬ Locking [] := by
    rw [Locking]
    decide
  rw [Template.filled, Template.Locks]
  generalize sql.start = start
  induction sql.rest generalizing start with
  | nil => simp
  | cons place rest ih =>
    have happend : start ++ (place :: rest).flatMap (fun p => quote [] ++ p.2) =
        start ++ '\'' :: ([] ++ '\'' :: (place.2 ++ rest.flatMap fun p => quote [] ++ p.2)) :=
      rfl
    rw [happend, locking_append_quote, locking_append_quote, or_iff_right hnil]
    refine (or_congr_right (ih place.2)).trans ?_
    simp

theorem uppercase_quote {s : List Char} :
    toAsciiUppercase (quote s ++ m) =
      '\'' :: (toAsciiUppercase s ++ '\'' :: toAsciiUppercase m) := by
  simp [quote, toAsciiUppercase]

/-- A text that closes all brackets before its keyword. -/
theorem detected_filled (h : sql.rest ≠ []) {up : List Char}
    (hup : toAsciiUppercase (trimStart sql.start) = "WITH ".toList ++ up) :
    Detected (toAsciiUppercase (trimStart (sql.filled (quote
      (List.replicate (depth '(' ')' 0 up) ')' ++ "INSERT ".toList))))) := by
  obtain ⟨place, rest, hrest⟩ := List.exists_cons_of_ne_nil h
  obtain ⟨tail, htail⟩ := @filled_cons sql place rest
    (quote (List.replicate (depth '(' ')' 0 up) ')' ++ "INSERT ".toList)) hrest
  have hinsert : toAsciiUppercase "INSERT ".toList = "INSERT ".toList := by decide
  have hclose : toAsciiUppercase (List.replicate (depth '(' ')' 0 up) ')') =
      List.replicate (depth '(' ')' 0 up) ')' := List.map_replicate
  rw [htail, trimStart_append literalAt_quote, uppercase_append, hup, uppercase_quote,
    uppercase_append, hinsert, hclose]
  refine .inr ⟨_, List.append_assoc _ _ _, up ++ '\'' :: List.replicate (depth '(' ')' 0 up) ')',
    "INSERT ".toList ++ '\'' :: toAsciiUppercase tail, ?_, ?_, ?_⟩
  · simp only [List.append_assoc, List.cons_append]
  · rw [depth_append, depth_cons, nest_other (by decide) (by decide),
      depth_replicate_closing (by decide), Nat.sub_self]
  · exact keywordAt_iff.mpr ⟨"INSERT ", by decide, List.prefix_append _ _⟩

/-- The brackets that a template closes after its start. -/
def Template.closes (sql : Template) : Nat :=
  (toAsciiUppercase (sql.rest.flatMap Prod.snd)).count ')'

theorem count_closing {rest : List (Nat × List Char)} {value : List Char}
    (h : (toAsciiUppercase value).count ')' = 0) :
    (toAsciiUppercase (rest.flatMap fun place => value ++ place.2)).count ')' =
      (toAsciiUppercase (rest.flatMap Prod.snd)).count ')' := by
  induction rest with
  | nil => rfl
  | cons place rest ih => simp [uppercase_append, h, ih]

theorem uppercase_opening {n : Nat} :
    toAsciiUppercase (List.replicate n '(') = List.replicate n '(' :=
  List.map_replicate

theorem count_quote_opening {n : Nat} :
    (toAsciiUppercase (quote (List.replicate n '('))).count ')' = 0 := by
  rw [← List.append_nil (quote _), uppercase_quote, uppercase_opening]
  simp [List.count_replicate, toAsciiUppercase]

/-- After more opening brackets than are closed later no keyword is outside of all brackets. -/
theorem not_outermost_opened {d n : Nat} (hn : m.count ')' < n) :
    ¬ Outermost '(' ')' KeywordAt d ('\'' :: (List.replicate n '(' ++ '\'' :: m)) := by
  intro hout
  rw [outermost_cons, nest_other (by decide) (by decide)] at hout
  rcases hout with ⟨_, hk⟩ | hout
  · exact absurd (keywordAt_head hk) (by decide)
  · rcases outermost_append.mp hout with ⟨a, b, hab, hb, _, hk⟩ | hout
    · obtain ⟨c, b, rfl⟩ := List.exists_cons_of_ne_nil hb
      have hmem : c ∈ List.replicate n '(' := by simp [hab]
      obtain rfl := List.eq_of_mem_replicate hmem
      exact absurd (keywordAt_head hk) (by decide)
    · refine not_outermost_of_count ?_ hout
      rw [depth_replicate_opening, List.count_cons]
      simp
      omega

/-- A text with more opening brackets than the template closes hides all keywords after it. -/
theorem not_detected_filled (h : sql.rest ≠ []) {up : List Char}
    (hup : toAsciiUppercase (trimStart sql.start) = "WITH ".toList ++ up)
    (hstart : ¬ Detected ("WITH ".toList ++ up)) :
    ¬ Detected (toAsciiUppercase (trimStart (sql.filled (quote
      (List.replicate (sql.closes + 1) '('))))) := by
  obtain ⟨place, rest, hrest⟩ := List.exists_cons_of_ne_nil h
  have hfilled : sql.filled (quote (List.replicate (sql.closes + 1) '(')) =
      sql.start ++ (quote (List.replicate (sql.closes + 1) '(') ++ (place.2 ++
        rest.flatMap fun place => quote (List.replicate (sql.closes + 1) '(') ++ place.2)) := by
    rw [Template.filled, hrest, List.flatMap_cons, List.append_assoc]
  have hcount : (toAsciiUppercase (place.2 ++ rest.flatMap fun place =>
      quote (List.replicate (sql.closes + 1) '(') ++ place.2)).count ')' = sql.closes := by
    rw [Template.closes, hrest, uppercase_append, List.count_append, count_closing]
    · rw [List.flatMap_cons, uppercase_append, List.count_append]
    · exact count_quote_opening
  rw [hfilled, trimStart_append literalAt_quote, uppercase_append, hup]
  generalize place.2 ++ (rest.flatMap fun place =>
    quote (List.replicate (sql.closes + 1) '(') ++ place.2) = tail at hcount
  have hlit := literalAt_uppercase
    (@literalAt_quote tail (List.replicate (sql.closes + 1) '('))
  rintro (hk | ⟨after, hwith, hout⟩)
  · exact hstart (.inl ((keywordAt_append hlit).mp hk))
  · rw [List.append_assoc] at hwith
    obtain rfl := List.append_cancel_left hwith
    rcases outermost_append.mp hout with ⟨a, b, rfl, _, ha, hb⟩ | hout
    · exact hstart (.inr ⟨a ++ b, rfl, a, b, rfl, ha, (keywordAt_append hlit).mp hb⟩)
    · rw [uppercase_quote, uppercase_opening] at hout
      refine not_outermost_opened ?_ hout
      rw [hcount]
      exact Nat.lt_succ_self _

/-! ### Which templates keep their way -/

theorem isPlain_replicate {n : Nat} (h : isPlain c = true) :
    ∀ x ∈ List.replicate n c, isPlain x = true := by
  intro x hx
  rw [List.eq_of_mem_replicate hx]
  exact h

/-- A statement with one value in all places, which is a text without escapes. -/
theorem exists_quoted (hlit : SqlLiterals literal) (sql : Template) {value : List Char}
    (h : ∀ c ∈ value, isPlain c = true) :
    ∃ s : Statement Value, s.sql = sql ∧ s.text literal = sql.filled (quote value) := by
  obtain ⟨v, hv⟩ := hlit.quoted value h
  rw [← hv]
  exact exists_filled v

/-- Every two lists of bound values give a template the same way exactly where it has no place
for a value; or a locking phrase in its text and, in front of the first place, what decides
whether it is a write. -/
theorem same_routing_iff (literal : Value → List Char) (hlit : SqlLiterals literal)
    (sql : Template) :
    (∀ s t : Statement Value, s.sql = sql → t.sql = sql → SameRouting literal s t) ↔
      sql.rest = [] ∨ sql.Locks ∧ sql.Decided := by
  simp only [sameRouting_iff]
  constructor
  · intro h
    by_cases hrest : sql.rest = []
    · exact .inl hrest
    · refine .inr ⟨?_, ?_⟩
      · obtain ⟨s, hs, hlocking⟩ := exists_quoted hlit sql
          (List.all_eq_true.mp (show "FOR UPDATE".toList.all isPlain = true by decide))
        obtain ⟨t, ht, hempty⟩ := exists_quoted hlit sql
          (List.all_eq_true.mp (show [].all isPlain = true by decide))
        have hsame := (h s t hs ht).2
        rw [hlocking, hempty, locking_filled_empty] at hsame
        exact hsame.mp (locking_filled hrest)
      · by_contra hdecided
        obtain ⟨hstart, hwith⟩ := not_or.mp hdecided
        obtain ⟨up, hup⟩ := not_not.mp hwith
        have hplain : ∀ x ∈ List.replicate (depth '(' ')' 0 up) ')' ++ "INSERT ".toList,
            isPlain x = true := by
          intro x hx
          rcases List.mem_append.mp hx with hx | hx
          · exact isPlain_replicate (by decide) x hx
          · have hall : "INSERT ".toList.all isPlain = true := by decide
            exact List.all_eq_true.mp hall x hx
        obtain ⟨s, hs, hwrite⟩ := exists_quoted hlit sql hplain
        obtain ⟨t, ht, hread⟩ := exists_quoted hlit sql
          (@isPlain_replicate '(' (sql.closes + 1) (by decide))
        have hsame := (h s t hs ht).1
        rw [hwrite, hread] at hsame
        rw [← hup] at hstart
        exact not_detected_filled hrest hup.symm hstart
          (hsame.mp (detected_filled hrest hup.symm))
  · rintro (hrest | ⟨hlocks, hdecided⟩) s t rfl ht
    · rw [text_eq_start hrest, text_eq_start (ht.symm ▸ hrest), ht]
      exact ⟨Iff.rfl, Iff.rfl⟩
    · rw [detected_of_decided hlit hdecided, detected_of_decided hlit (ht.symm ▸ hdecided), ht]
      exact ⟨Iff.rfl, iff_of_true (locking_of_locks hlocks) (locking_of_locks (ht.symm ▸ hlocks))⟩

/-! ### Literals of PostgreSQL -/

inductive BoundValue
  | null
  | bool (b : Bool)
  | string (s : List Char)

def escapeChar (c : Char) : List Char := if ['\'', '"', '\\'].contains c then ['\\', c] else [c]

def BoundValue.toLiteral : BoundValue → List Char
  | .null => "NULL".toList
  | .bool b => if b then "TRUE".toList else "FALSE".toList
  | .string s =>
    if s.any fun c => ['\'', '"', '\\'].contains c then 'E' :: quote (s.flatMap escapeChar)
    else quote s

theorem sqlLiterals_boundValue : SqlLiterals BoundValue.toLiteral := by
  constructor
  · intro v
    cases v with
    | null => exact ⟨"NULL", by decide, List.prefix_rfl⟩
    | bool b =>
      cases b with
      | true => exact ⟨"TRUE", by decide, List.prefix_rfl⟩
      | false => exact ⟨"FALSE", by decide, List.prefix_rfl⟩
    | string s =>
      unfold BoundValue.toLiteral
      dsimp only
      split
      · exact ⟨"E'", by decide, _, rfl⟩
      · exact ⟨"'", by decide, _, rfl⟩
  · intro s hs
    refine ⟨.string s, if_neg ?_⟩
    intro h
    obtain ⟨c, hc, hescape⟩ := List.any_eq_true.mp h
    have hplain : ['\'', '"', '\\'].all (!isPlain ·) = true := by decide
    have hc' := List.all_eq_true.mp hplain c (List.contains_iff_mem.mp hescape)
    rw [hs c hc] at hc'
    cases hc'

def lockById : Template :=
  ⟨"SELECT id FROM users WHERE id = ".toList, [(0, " FOR UPDATE".toList)]⟩

theorem lock_by_id_same :
    SameRouting BoundValue.toLiteral
      ⟨lockById, [.string "1".toList], by decide⟩
      ⟨lockById, [.string "insert (".toList], by decide⟩ :=
  (same_routing_iff BoundValue.toLiteral sqlLiterals_boundValue lockById).mpr
    (.inr ⟨.inr ⟨_, List.mem_singleton_self _, "FOR UPDATE", by decide, by decide⟩,
      .inr (by decide)⟩) _ _ rfl rfl

def findByName : Template := ⟨"SELECT id FROM users WHERE name = ".toList, [(0, [])]⟩

/-- The second name is a locking phrase. -/
theorem find_by_name_locks :
    ¬ SameRouting BoundValue.toLiteral
      ⟨findByName, [.string "alice".toList], by decide⟩
      ⟨findByName, [.string "for update".toList], by decide⟩ := fun h =>
  absurd h.locking (by decide)

end Routing

end Webshelf
