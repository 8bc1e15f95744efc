import Webshelf.Routing.Router

/-!
# Do writes reach a read replica?

A data-modifying statement is recognised by its first characters, or by a search for a keyword
that stands outside of all brackets, where brackets in literals and comments count like any
other.
-/

namespace Webshelf

namespace Routing

/-! ### Data-modifying statements -/

/-- The white space of PostgreSQL. -/
def spaces : List Char := [' ', '\t', '\n', '\x0b', '\x0c', '\r']

/-- What may stand in front of a statement. -/
inductive Trivia
  | space (c : Char) (blank : c ∈ spaces)
  /-- A `--` comment, up to the end of its line. -/
  | line (body : List Char) (ending : Char) (oneLine : ∀ c ∈ body, c ≠ '\n' ∧ c ≠ '\r')
  /-- Such comments nest, so that the body may be any text. -/
  | block (body : List Char)

def Trivia.text : Trivia → List Char
  | .space c _ => [c]
  | .line body ending _ => "--".toList ++ body ++ [ending]
  | .block body => "/*".toList ++ body ++ "*/".toList

def Trivia.isSpace : Trivia → Bool
  | .space _ _ => true
  | .line _ _ _ | .block _ => false

inductive Keyword
  | insert
  | update
  | delete
  | with
  deriving DecidableEq

def Keyword.name : Keyword → List Char
  | .insert => "INSERT".toList
  | .update => "UPDATE".toList
  | .delete => "DELETE".toList
  | .with => "WITH".toList

/-- A character that would continue a word. -/
def isIdentifierChar (c : Char) : Bool :=
  c.isAlphanum || c == '_' || c == '$' || 128 ≤ c.toNat

/-- A data-modifying statement: an INSERT, UPDATE or DELETE, or a WITH that has one of them for
its main statement or the body of one of its CTEs, that is, somewhere after it. -/
structure WriteSql where
  lead : List Trivia
  keyword : Keyword
  /-- The keyword as it is written. -/
  word : List Char
  spelled : toAsciiUppercase word = keyword.name
  after : List Char
  ends : after.head?.any isIdentifierChar = false
  modifies : keyword = .with → ∃ (before behind inner : List Char) (k : Keyword),
    after = before ++ inner ++ behind ∧ k ≠ .with ∧ toAsciiUppercase inner = k.name

def WriteSql.text (sql : WriteSql) : List Char :=
  sql.lead.flatMap Trivia.text ++ (sql.word ++ sql.after)

/-- No comment stands in front of the keyword and a plain space after it; and after WITH there
is a keyword with a plain space outside of all brackets. -/
def WriteSql.Seen (sql : WriteSql) : Prop :=
  (∀ t ∈ sql.lead, t.isSpace = true) ∧ ∃ rest, sql.after = ' ' :: rest ∧
    (sql.keyword = .with → Outermost '(' ')' KeywordAt 0 (toAsciiUppercase rest))

/-! ### What is seen of them -/

variable {lead : List Trivia} {text rest : List Char} {c : Char}

theorem trimStart_cons (h : isWhitespace c = false) : trimStart (c :: text) = c :: text :=
  List.dropWhile_cons_of_neg (by simp [h])

theorem isWhitespace_of_space (h : c ∈ spaces) : isWhitespace c = true := by
  have hall : spaces.all isWhitespace = true := by decide
  exact List.all_eq_true.mp hall c h

/-- White space in front of a text is dropped, a comment is not. -/
theorem trimStart_lead (hc : isWhitespace c = false) :
    (∀ t ∈ lead, t.isSpace = true) ∧
        trimStart (lead.flatMap Trivia.text ++ c :: text) = c :: text ∨
      (¬ ∀ t ∈ lead, t.isSpace = true) ∧ ∃ c' rest, (c' = '-' ∨ c' = '/') ∧
        trimStart (lead.flatMap Trivia.text ++ c :: text) = c' :: rest := by
  induction lead with
  | nil => exact .inl ⟨by simp, trimStart_cons hc⟩
  | cons t lead ih =>
    cases t with
    | space b hb =>
      have htrim : trimStart ((Trivia.space b hb :: lead).flatMap Trivia.text ++ c :: text) =
          trimStart (lead.flatMap Trivia.text ++ c :: text) :=
        List.dropWhile_cons_of_pos (isWhitespace_of_space hb)
      rw [htrim]
      simpa [Trivia.isSpace] using ih
    | line body ending h =>
      exact .inr ⟨by simp [Trivia.isSpace], '-', _, .inl rfl, trimStart_cons (by decide)⟩
    | block body =>
      exact .inr ⟨by simp [Trivia.isSpace], '/', _, .inr rfl, trimStart_cons (by decide)⟩

theorem not_detected_comment (hc : c = '-' ∨ c = '/') :
    ¬ Detected (toAsciiUppercase (c :: text)) := by
  rintro (h | ⟨rest, h, _⟩)
  · rcases hc with rfl | rfl <;> exact absurd (keywordAt_head h) (by decide)
  · rcases hc with rfl | rfl <;> exact absurd (List.cons.inj h).1 (by decide)

theorem uppercase_eq_space {up : List Char} : toAsciiUppercase text = ' ' :: up ↔
    ∃ rest, text = ' ' :: rest ∧ toAsciiUppercase rest = up := by
  rw [toAsciiUppercase, List.map_eq_cons_iff]
  constructor
  · rintro ⟨c, rest, rfl, hc, rfl⟩
    exact ⟨rest, by rw [(toUpper_eq (by decide) (by decide)).mp hc], rfl⟩
  · rintro ⟨rest, rfl, rfl⟩
    exact ⟨' ', rest, rfl, rfl, rfl⟩

section
variable {keyword : Keyword} {up : List Char}

/-- Four characters tell the keywords apart. -/
theorem keyword_of_take : ∀ k ∈ writeKeywords, k.toList.take 4 = keyword.name.take 4 →
    keyword ≠ .with ∧ k.toList = keyword.name ++ [' '] := by
  cases keyword <;> decide

theorem keywordAt_name :
    KeywordAt (keyword.name ++ up) ↔ keyword ≠ .with ∧ ∃ rest, up = ' ' :: rest := by
  rw [keywordAt_iff]
  constructor
  · rintro ⟨k, hk, hprefix⟩
    have htake : k.toList.take 4 = keyword.name.take 4 := by
      have hlong : 4 ≤ keyword.name.length := by cases keyword <;> decide
      have hlong' : ∀ k ∈ writeKeywords, 4 ≤ k.toList.length := by decide
      obtain ⟨t, ht⟩ := hprefix
      have h := congrArg (List.take 4) ht
      rwa [List.take_append_of_le_length (hlong' k hk), List.take_append_of_le_length hlong] at h
    obtain ⟨hwith, hname⟩ := keyword_of_take k hk htake
    rw [hname, List.prefix_append_right_inj] at hprefix
    obtain ⟨rest, rfl⟩ := hprefix
    exact ⟨hwith, rest, rfl⟩
  · rintro ⟨hwith, rest, rfl⟩
    cases keyword with
    | insert => exact ⟨"INSERT ", by decide, rest, rfl⟩
    | update => exact ⟨"UPDATE ", by decide, rest, rfl⟩
    | delete => exact ⟨"DELETE ", by decide, rest, rfl⟩
    | «with» => cases hwith rfl

theorem name_eq_with : keyword.name ++ up = "WITH ".toList ++ rest ↔
    keyword = .with ∧ up = ' ' :: rest := by
  have hspace : "WITH ".toList = Keyword.with.name ++ [' '] := by decide
  rw [hspace, List.append_assoc]
  constructor
  · intro h
    have hhead := congrArg List.head? h
    cases keyword with
    | «with» => exact ⟨rfl, List.append_cancel_left h⟩
    | insert => exact absurd (Option.some.inj hhead) (by decide)
    | update => exact absurd (Option.some.inj hhead) (by decide)
    | delete => exact absurd (Option.some.inj hhead) (by decide)
  · rintro ⟨rfl, rfl⟩
    rfl

theorem detected_name : Detected (keyword.name ++ up) ↔ ∃ rest, up = ' ' :: rest ∧
    (keyword = .with → Outermost '(' ')' KeywordAt 0 rest) := by
  simp only [Detected, keywordAt_name, name_eq_with]
  constructor
  · rintro (⟨hk, rest, rfl⟩ | ⟨rest, ⟨_, rfl⟩, h⟩)
    · exact ⟨rest, rfl, fun h => absurd h hk⟩
    · exact ⟨rest, rfl, fun _ => h⟩
  · rintro ⟨rest, rfl, h⟩
    by_cases hk : keyword = .with
    · exact .inr ⟨rest, ⟨hk, rfl⟩, h hk⟩
    · exact .inl ⟨hk, rest, rfl⟩

end

theorem isWhitespace_letter (h : 65 ≤ c.toUpper.toNat ∧ c.toUpper.toNat ≤ 90) :
    isWhitespace c = false := by
  have hc : 65 ≤ c.toNat ∧ c.toNat ≤ 122 := by
    rw [toNat_toUpper] at h
    split at h <;> omega
  simp [isWhitespace]
  omega

/-- A keyword, however it is written, starts with a letter. -/
theorem word_head (sql : WriteSql) :
    ∃ c word, sql.word = c :: word ∧ isWhitespace c = false := by
  have hname : ∀ k : Keyword, ∃ x ∈ k.name.head?, 65 ≤ x.toNat ∧ x.toNat ≤ 90 := by
    intro k
    cases k <;> exact ⟨_, rfl, by decide⟩
  obtain ⟨x, hx, hletter⟩ := hname sql.keyword
  rw [← sql.spelled, toAsciiUppercase, List.head?_map] at hx
  cases hword : sql.word with
  | nil =>
    rw [hword] at hx
    cases hx
  | cons c word =>
    rw [hword] at hx
    cases hx
    exact ⟨c, word, rfl, isWhitespace_letter hletter⟩

theorem detected_iff (sql : WriteSql) :
    Detected (toAsciiUppercase (trimStart sql.text)) ↔ sql.Seen := by
  obtain ⟨c, word, hword, hc⟩ := word_head sql
  have htext : sql.text = sql.lead.flatMap Trivia.text ++ c :: (word ++ sql.after) := by
    rw [WriteSql.text, hword]
    rfl
  rw [htext, WriteSql.Seen]
  rcases @trimStart_lead sql.lead (word ++ sql.after) c hc with
    ⟨hlead, htrim⟩ | ⟨hlead, c', rest, hc', htrim⟩
  · have hup : toAsciiUppercase (c :: (word ++ sql.after)) =
        sql.keyword.name ++ toAsciiUppercase sql.after := by
      rw [← sql.spelled, hword]
      exact @List.map_append _ _ Char.toUpper (c :: word) sql.after
    rw [htrim, hup, detected_name]
    rw [and_iff_right hlead]
    simp only [uppercase_eq_space]
    constructor
    · rintro ⟨_, ⟨rest, hafter, rfl⟩, h⟩
      exact ⟨rest, hafter, h⟩
    · rintro ⟨rest, hafter, h⟩
      exact ⟨_, ⟨rest, hafter, rfl⟩, h⟩
  · rw [htrim]
    exact iff_of_false (not_detected_comment hc') fun h => hlead h.1

/-! ### Where they are sent -/

/-- `query_one` and `query_all` send a data-modifying statement to the writer exactly where it
is seen or passes for a locking SELECT, or where no replica can be asked anyway. -/
theorem writes_to_writer_iff {Value : Type} (literal : Value → List Char)
    (stmt : Statement Value) (sql : WriteSql) (h : stmt.text literal = sql.text)
    (env : Nat → Occasion) (r : AutoRouter) :
    let toWriter := sql.Seen ∨ Locking sql.text ∨ r.reads = [] ∨
      r.healthy (env 0).now [] = [] ∧ r.fallbackToWrite = true
    ((r.queryOne literal env stmt).sent = [.write] ↔ toWriter) ∧
      ((r.queryAll literal env stmt).sent = [.write] ↔ toWriter) := by
  have hroute := @sent_route Value env r literal stmt
  rw [isWriteStatement_iff, isLockingSelect_iff, h, detected_iff] at hroute
  exact ⟨hroute, hroute⟩

/-- Where the brackets of the CTEs are even, and even in their literals, the main statement is
seen. -/
theorem seen_of_even {sql : WriteSql} {ctes main : List Char} (hlead : sql.lead = [])
    (hafter : sql.after = ' ' :: (ctes ++ main))
    (heven : depth '(' ')' 0 (toAsciiUppercase ctes) = 0)
    (hmain : KeywordAt (toAsciiUppercase main)) : sql.Seen := by
  refine ⟨by simp [hlead], ctes ++ main, hafter, ?_⟩
  intro _
  exact ⟨toAsciiUppercase ctes, toAsciiUppercase main, List.map_append, heven, hmain⟩

def plainInsert : WriteSql where
  lead := []
  keyword := .insert
  word := "insert".toList
  spelled := by decide
  after := " INTO logs VALUES (1)".toList
  ends := by decide
  modifies := fun h => absurd h (by decide)

theorem plain_insert_written :
    (oneReplica.queryOne (fun _ : Unit => []) (fun _ => ⟨0, 0, .ok, 0⟩)
      (.fromString plainInsert.text)).sent = [.write] :=
  ((writes_to_writer_iff _ _ plainInsert text_fromString _ oneReplica).1).mpr
    (.inl ⟨by decide, " INTO logs VALUES (1)".toList.tail, by decide,
      fun h => absurd h (by decide)⟩)

/-- The bracket in the literal is never closed. -/
def hiddenInsert : WriteSql where
  lead := []
  keyword := .with
  word := "WITH".toList
  spelled := by decide
  after := " t AS (SELECT '(' AS a) INSERT INTO logs SELECT a FROM t".toList
  ends := by decide
  modifies := fun _ => ⟨" t AS (SELECT '(' AS a) ".toList, " INTO logs SELECT a FROM t".toList,
    "INSERT".toList, .insert, by decide, by decide, by decide⟩

theorem hidden_insert_read :
    (oneReplica.queryOne (fun _ : Unit => []) (fun _ => ⟨0, 0, .ok, 0⟩)
      (.fromString hiddenInsert.text)).sent = [.read 0] := by
  decide

end Routing

end Webshelf
