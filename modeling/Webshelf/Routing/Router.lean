import Webshelf.Store.User
import Webshelf.Lib.Nesting
import Mathlib.Algebra.GroupWithZero.Nat

/-!
# The database router

`AutoRouter` sends what it takes for a write or a locking SELECT to the writer and everything
else to one of the read replicas. It decides by the text of the statement.
-/

namespace Webshelf

namespace Routing

/-- The SQL of a statement: a text, then the places of bound values, each with the text after
it. -/
structure Template where
  start : List Char
  rest : List (Nat × List Char)

/-- Every place of the SQL has a value. -/
structure Statement (Value : Type) where
  sql : Template
  values : List Value
  bound : ∀ place ∈ sql.rest, place.1 < values.length

variable {Value : Type}

/-- `Statement::to_string`, which writes the bound values as SQL literals. -/
def Statement.text (literal : Value → List Char) (stmt : Statement Value) : List Char :=
  stmt.sql.start ++ stmt.sql.rest.flatMap fun place =>
    stmt.values[place.1]?.elim [] literal ++ place.2

def Statement.fromString (sql : List Char) : Statement Value := ⟨⟨sql, []⟩, [], by simp⟩

theorem text_fromString {literal : Value → List Char} {sql : List Char} :
    (Statement.fromString sql).text literal = sql :=
  List.append_nil sql

/-! ### Detection -/

def toAsciiUppercase (text : List Char) : List Char := text.map Char.toUpper

/-- `char::is_whitespace`. -/
def isWhitespace (c : Char) : Bool :=
  (9 ≤ c.toNat && c.toNat ≤ 13) || (0x2000 ≤ c.toNat && c.toNat ≤ 0x200A) ||
    [0x20, 0x85, 0xA0, 0x1680, 0x2028, 0x2029, 0x202F, 0x205F, 0x3000].contains c.toNat

def trimStart (text : List Char) : List Char := text.dropWhile isWhitespace

def startsWith (text : List Char) (s : String) : Bool := s.toList.isPrefixOf text

def contains (text : List Char) (s : String) : Bool := decide (s.toList <:+: text)

def stripPrefix (text : List Char) (s : String) : Option (List Char) :=
  if startsWith text s then some (text.drop s.toList.length) else none

def lockingPhrases : List String :=
  ["FOR UPDATE", "FOR SHARE", "FOR NO KEY UPDATE", "FOR KEY SHARE", "LOCK IN SHARE MODE"]

def isLockingSelect (literal : Value → List Char) (stmt : Statement Value) : Bool :=
  let sql := stmt.text literal
  if sql.isEmpty then false
  else
    let up := toAsciiUppercase sql
    lockingPhrases.any (contains up)

def writeKeywords : List String := ["INSERT ", "UPDATE ", "DELETE ", "REPLACE "]

/-- The loop of `cte_main_stmt_is_write`; no keyword starts with a bracket. -/
def scanCte (depth : Nat) : List Char → Bool
  | [] => false
  | c :: rest =>
    if c = '(' then scanCte (depth + 1) rest
    else if c = ')' then scanCte (depth - 1) rest
    else if depth = 0 && writeKeywords.any (startsWith (c :: rest)) then true
    else scanCte depth rest

/-- `cte_main_stmt_is_write` of a text that starts with `WITH`. -/
def cteMainStmtIsWrite (up : List Char) : Bool :=
  let rest := (stripPrefix up "WITH ").getD up
  let rest := (stripPrefix rest "RECURSIVE ").getD rest
  scanCte 0 rest

def isWriteStatement (literal : Value → List Char) (stmt : Statement Value) : Bool :=
  let sql := stmt.text literal
  if sql.isEmpty then false
  else
    let up := toAsciiUppercase (trimStart sql)
    if writeKeywords.any (startsWith up) then true
    else if startsWith up "WITH " then cteMainStmtIsWrite up
    else false

/-! ### The read replicas -/

inductive ReadStrategy
  | roundRobin
  | random
  | weighted
  deriving DecidableEq

/-- The read replicas, by their weights, and what is known of their health. -/
structure AutoRouter where
  reads : List Nat
  strategy : ReadStrategy := .roundRobin
  rrCounter : Nat := 0
  downUntil : List (Option Time)
  circuitBreak : Time := seconds 30
  retryAttempts : Nat := 2
  fallbackToWrite : Bool := false
  covers : downUntil.length = reads.length

inductive Connection
  | write
  | read (index : Nat)
  deriving DecidableEq

/-- How a connection answers; `is_connection_error` tells the errors apart. -/
inductive Answer
  | ok
  | connectionError
  | queryError
  deriving DecidableEq

/-- What the environment decides about an attempt: the clock and the random number when the
replica is picked, the answer, and the clock when it is marked down. -/
structure Occasion where
  now : Time
  roll : Nat
  answer : Answer
  later : Time

namespace AutoRouter

/-- Whether a circuit breaker has expired. -/
def expired (now : Time) (downUntil : Option Time) : Bool := downUntil.all (decide <| · ≤ now)

/-- The replicas that are up or up again, without those of `exclude`. -/
def healthy (r : AutoRouter) (now : Time) (exclude : List Nat) : List Nat :=
  (List.range r.reads.length).filter fun i =>
    !exclude.contains i && expired now (r.downUntil.getD i none)

/-- `pick_next_read` forgets the circuit breakers that have expired. -/
def recover (r : AutoRouter) (now : Time) (exclude : List Nat) : AutoRouter :=
  { r with
    downUntil := r.downUntil.mapIdx fun i until_ =>
      if !exclude.contains i && expired now until_ then none else until_
    covers := by rw [List.length_mapIdx]; exact r.covers }

/-- The loop of `select_weighted_index`. -/
def pickWeighted (chosen : Nat) : List (Nat × Nat) → Nat → Nat
  | [], _ => chosen
  | (i, w) :: rest, roll => if roll < w then i else pickWeighted chosen rest (roll - w)

def nextRoundRobin (r : AutoRouter) (healthy : List Nat) : AutoRouter × Nat :=
  ({ r with rrCounter := (r.rrCounter + 1) % 2 ^ 64 },
    healthy.getD (r.rrCounter % healthy.length) 0)

def selectWeightedIndex (r : AutoRouter) (healthy : List Nat) (roll : Nat) : AutoRouter × Nat :=
  let weights := healthy.map fun i => r.reads.getD i 0
  if weights.sum = 0 then r.nextRoundRobin healthy
  else (r, pickWeighted (healthy.headD 0) (healthy.zip weights) (roll % weights.sum))

def pickNextRead (r : AutoRouter) (o : Occasion) (exclude : List Nat) :
    AutoRouter × Option Nat :=
  let healthy := r.healthy o.now exclude
  let r := r.recover o.now exclude
  if healthy.isEmpty then (r, none)
  else
    let (r, chosen) := match r.strategy with
      | .roundRobin => r.nextRoundRobin healthy
      | .random => (r, healthy.getD (o.roll % healthy.length) 0)
      | .weighted => r.selectWeightedIndex healthy o.roll
    (r, some chosen)

def markDown (r : AutoRouter) (idx : Nat) (now : Time) : AutoRouter :=
  { r with
    downUntil := r.downUntil.set idx (some (now + r.circuitBreak))
    covers := by rw [List.length_set]; exact r.covers }

end AutoRouter

/-- A call of `execute_read_retry`: the connections it has sent the statement to, and what it
has returned. -/
structure ReadRetry where
  router : AutoRouter
  tried : List Nat := []
  sent : List Connection := []
  /-- `last_err.is_some()`. -/
  failed : Bool := false
  returned : Option Answer := none

/-- A router with one replica, which is up. -/
def oneReplica : AutoRouter := { reads := [1], downUntil := [none], covers := rfl }

namespace ReadRetry

/-- One attempt at replica `idx`. -/
def attempt (o : Occasion) (idx : Nat) (s : ReadRetry) : ReadRetry :=
  let s := { s with sent := s.sent ++ [Connection.read idx] }
  match o.answer with
  | .connectionError => { s with router := s.router.markDown idx o.later, failed := true }
  | answer => { s with returned := some answer }

/-- Phase 1: each replica once. -/
def tryEach (env : Nat → Occasion) : Nat → ReadRetry → ReadRetry
  | 0, s => s
  | rounds + 1, s =>
    let o := env s.sent.length
    match s.router.pickNextRead o s.tried with
    | (router, none) => { s with router := router }
    | (router, some idx) =>
      let s := attempt o idx { s with router := router, tried := s.tried ++ [idx] }
      if s.returned.isSome then s else tryEach env rounds s

/-- Phase 2: the extra attempts, whatever the circuit breakers say. -/
def tryAgain (env : Nat → Occasion) : List Nat → ReadRetry → ReadRetry
  | [], s => s
  | retry :: retries, s =>
    let idx := (s.tried.length + retry) % s.router.reads.length
    let s := attempt (env s.sent.length) idx s
    if s.returned.isSome then s else tryAgain env retries s

/-- The writer is asked. -/
def toWriter (env : Nat → Occasion) (s : ReadRetry) : ReadRetry :=
  { s with sent := s.sent ++ [Connection.write], returned := some (env s.sent.length).answer }

end ReadRetry

open ReadRetry

namespace AutoRouter

def executeReadRetry (env : Nat → Occasion) (r : AutoRouter) : ReadRetry :=
  let s : ReadRetry := { router := r }
  if r.reads.isEmpty then s.toWriter env
  else
    let s := tryEach env r.reads.length s
    if s.returned.isSome then s
    else
      let s := if s.failed then tryAgain env (List.range r.retryAttempts) s else s
      if s.returned.isSome then s
      else if r.fallbackToWrite then s.toWriter env
      -- the last error, or that there was nothing to try
      else { s with returned := some (if s.failed then .connectionError else .queryError) }

/-- The body that `query_one` and `query_all` share. -/
def route (literal : Value → List Char) (env : Nat → Occasion) (r : AutoRouter)
    (stmt : Statement Value) : ReadRetry :=
  if isWriteStatement literal stmt || isLockingSelect literal stmt || r.reads.isEmpty then
    ReadRetry.toWriter env { router := r }
  else r.executeReadRetry env

def queryOne (literal : Value → List Char) (env : Nat → Occasion) (r : AutoRouter)
    (stmt : Statement Value) : ReadRetry :=
  r.route literal env stmt

def queryAll (literal : Value → List Char) (env : Nat → Occasion) (r : AutoRouter)
    (stmt : Statement Value) : ReadRetry :=
  r.route literal env stmt

end AutoRouter

/-! ### What is detected -/

/-- A keyword of a write, and a space. -/
def KeywordAt (text : List Char) : Prop := writeKeywords.any (startsWith text) = true

instance (text : List Char) : Decidable (KeywordAt text) := inferInstanceAs (Decidable (_ = true))

/-- An upper-case text that passes for a write: at its start, or after `WITH` and outside of all
brackets, there is a keyword. -/
def Detected (up : List Char) : Prop :=
  KeywordAt up ∨ ∃ rest, up = "WITH ".toList ++ rest ∧ Outermost '(' ')' KeywordAt 0 rest

/-- A text that passes for a locking SELECT. -/
def Locking (text : List Char) : Prop :=
  ∃ phrase ∈ lockingPhrases, phrase.toList <:+: toAsciiUppercase text

section
variable {literal : Value → List Char} {stmt : Statement Value} {text rest up : List Char}
  {d : Nat} {c : Char}

theorem toNat_toUpper :
    c.toUpper.toNat = if 97 ≤ c.toNat ∧ c.toNat ≤ 122 then c.toNat - 32 else c.toNat := by
  unfold Char.toUpper
  by_cases h : 'a'.val ≤ c.val ∧ c.val ≤ 'z'.val
  · have hc : 97 ≤ c.val.toNat ∧ c.val.toNat ≤ 122 := h
    have hsub : ('A'.val - 'a'.val).toNat = 2 ^ 32 - 32 := by decide
    have hupper : (c.val + ('A'.val - 'a'.val)).toNat = c.val.toNat - 32 := by
      rw [UInt32.toNat_add, hsub]
      omega
    rw [dif_pos h]
    exact hupper.trans (if_pos hc).symm
  · have hc : ¬ (97 ≤ c.toNat ∧ c.toNat ≤ 122) := h
    rw [dif_neg h, if_neg hc]

/-- Only a letter becomes a letter. -/
theorem toUpper_eq (h : c.toNat < 65 ∨ 90 < c.toNat) (hl : c.toNat < 97 ∨ 122 < c.toNat)
    {x : Char} : x.toUpper = c ↔ x = c := by
  rw [← Char.toNat_inj, ← Char.toNat_inj, toNat_toUpper]
  split <;> omega

theorem startsWith_iff {s : String} : startsWith text s = true ↔ s.toList <+: text :=
  List.isPrefixOf_iff_prefix

theorem not_keywordAt_nil : ¬ KeywordAt [] := by decide

theorem keywordAt_iff : KeywordAt text ↔ ∃ k ∈ writeKeywords, k.toList <+: text := by
  simp only [KeywordAt, List.any_eq_true, startsWith_iff]

theorem keywordAt_head (h : KeywordAt (c :: rest)) : c = 'I' ∨ c = 'U' ∨ c = 'D' ∨ c = 'R' := by
  obtain ⟨k, hk, hprefix⟩ := keywordAt_iff.mp h
  have hhead : k.toList.head? = some c := by
    obtain ⟨t, ht⟩ := hprefix
    cases hlist : k.toList with
    | nil =>
      have hall : ∀ k ∈ writeKeywords, k.toList ≠ [] := by decide
      exact absurd hlist (hall k hk)
    | cons x l =>
      rw [hlist] at ht
      rw [(List.cons.inj ht).1]
      rfl
  have hall : ∀ k ∈ writeKeywords, k.toList.head? = some 'I' ∨ k.toList.head? = some 'U' ∨
      k.toList.head? = some 'D' ∨ k.toList.head? = some 'R' := by decide
  simpa [hhead] using hall k hk

theorem scanCte_iff : scanCte d text = true ↔ Outermost '(' ')' KeywordAt d text := by
  induction text generalizing d with
  | nil =>
    simp only [scanCte, Bool.false_eq_true, false_iff]
    rintro ⟨a, b, hab, _, hb⟩
    rw [(List.append_eq_nil_iff.mp hab.symm).2] at hb
    exact not_keywordAt_nil hb
  | cons c text ih =>
    rw [outermost_cons, scanCte]
    by_cases hopen : c = '('
    · subst hopen
      rw [if_pos rfl, ih, nest_opening]
      refine (or_iff_right ?_).symm
      rintro ⟨_, h⟩
      exact absurd (keywordAt_head h) (by decide)
    · rw [if_neg hopen]
      by_cases hclose : c = ')'
      · subst hclose
        rw [if_pos rfl, ih, nest_closing (by decide)]
        refine (or_iff_right ?_).symm
        rintro ⟨_, h⟩
        exact absurd (keywordAt_head h) (by decide)
      · rw [if_neg hclose, nest_other hopen hclose, ← ih]
        by_cases hk : d = 0 ∧ KeywordAt (c :: text)
        · simp [hk, show writeKeywords.any (startsWith (c :: text)) = true from hk.2]
        · have hany : (d = 0 && writeKeywords.any (startsWith (c :: text))) = false := by
            simpa [KeywordAt] using hk
          simp [hk, hany]

/-- It makes no difference that `RECURSIVE` is skipped. -/
theorem scanCte_recursive : scanCte 0 ("RECURSIVE ".toList ++ rest) = scanCte 0 rest := by
  simp [scanCte, writeKeywords, startsWith]

theorem cteMainStmtIsWrite_with :
    cteMainStmtIsWrite ("WITH ".toList ++ rest) = scanCte 0 rest := by
  have hwith : (stripPrefix ("WITH ".toList ++ rest) "WITH ").getD ("WITH ".toList ++ rest) =
      rest := by
    rw [stripPrefix, if_pos (startsWith_iff.mpr (List.prefix_append _ _)), List.drop_left]
    rfl
  rw [cteMainStmtIsWrite, hwith]
  by_cases h : startsWith rest "RECURSIVE " = true
  · obtain ⟨rest, rfl⟩ := startsWith_iff.mp h
    rw [stripPrefix, if_pos h, List.drop_left, Option.getD_some, scanCte_recursive]
  · rw [stripPrefix, if_neg h, Option.getD_none]

theorem isWriteStatement_iff : isWriteStatement literal stmt = true ↔
    Detected (toAsciiUppercase (trimStart (stmt.text literal))) := by
  unfold isWriteStatement
  generalize stmt.text literal = sql
  cases sql with
  | nil =>
    have h : ¬ Detected (toAsciiUppercase (trimStart [])) := by
      rintro (h | ⟨rest, h, _⟩)
      · exact not_keywordAt_nil h
      · cases h
    simpa using h
  | cons c sql =>
    simp only [List.isEmpty_cons, Bool.false_eq_true, if_false]
    generalize toAsciiUppercase (trimStart (c :: sql)) = up
    by_cases hk : KeywordAt up
    · simp [Detected, hk, show writeKeywords.any (startsWith up) = true from hk]
    · have hany : writeKeywords.any (startsWith up) = false := by simpa [KeywordAt] using hk
      rw [hany, Detected, or_iff_right hk, if_neg (by simp)]
      by_cases hwith : startsWith up "WITH " = true
      · obtain ⟨rest, rfl⟩ := startsWith_iff.mp hwith
        rw [if_pos hwith, cteMainStmtIsWrite_with, scanCte_iff]
        simp
      · rw [if_neg hwith]
        simp only [Bool.false_eq_true, false_iff]
        rintro ⟨rest, rfl, _⟩
        exact hwith (startsWith_iff.mpr (List.prefix_append _ _))

theorem isLockingSelect_iff : isLockingSelect literal stmt = true ↔
    Locking (stmt.text literal) := by
  unfold isLockingSelect
  generalize stmt.text literal = sql
  cases sql with
  | nil =>
    have h : ¬ Locking [] := by
      rw [Locking]
      decide
    simpa using h
  | cons c sql => simp [Locking, contains]

end

/-! ### Which connection is asked -/

section
variable {env : Nat → Occasion} {r : AutoRouter} {s : ReadRetry} {o : Occasion} {idx : Nat}

theorem sent_attempt : (attempt o idx s).sent = s.sent ++ [.read idx] := by
  unfold attempt
  dsimp only
  split <;> rfl

theorem sent_tryEach {rounds : Nat} : s.sent <+: (tryEach env rounds s).sent := by
  induction rounds generalizing s with
  | zero => exact List.prefix_rfl
  | succ rounds ih =>
    rw [tryEach]
    split
    · exact List.prefix_rfl
    · rename_i router idx _
      have hsent : s.sent <+: (attempt (env s.sent.length) idx
          { s with router := router, tried := s.tried ++ [idx] }).sent := by
        rw [sent_attempt]
        exact List.prefix_append _ _
      dsimp only
      split
      · exact hsent
      · exact hsent.trans ih

theorem sent_tryAgain {retries : List Nat} : s.sent <+: (tryAgain env retries s).sent := by
  induction retries generalizing s with
  | nil => exact List.prefix_rfl
  | cons retry retries ih =>
    have hsent : s.sent <+: (attempt (env s.sent.length)
        ((s.tried.length + retry) % s.router.reads.length) s).sent := by
      rw [sent_attempt]
      exact List.prefix_append _ _
    rw [tryAgain]
    split
    · exact hsent
    · exact hsent.trans ih

theorem pickNextRead_none (h : r.healthy o.now [] = []) :
    r.pickNextRead o [] = (r.recover o.now [], none) := by
  simp [AutoRouter.pickNextRead, h]

theorem pickNextRead_some (h : r.healthy o.now [] ≠ []) :
    ∃ router idx, r.pickNextRead o [] = (router, some idx) := by
  simp [AutoRouter.pickNextRead, h]

theorem tryEach_down {rounds : Nat} (h : r.healthy (env 0).now [] = []) :
    (tryEach env rounds { router := r }).sent = [] ∧
      (tryEach env rounds { router := r }).failed = false ∧
      (tryEach env rounds { router := r }).returned = none := by
  cases rounds with
  | zero => exact ⟨rfl, rfl, rfl⟩
  | succ rounds =>
    have hpick : r.pickNextRead (env 0) [] = (r.recover (env 0).now [], none) :=
      pickNextRead_none h
    simp [tryEach, hpick]

/-- Where no replica is up there is nothing to try. -/
theorem executeReadRetry_down (hreads : r.reads ≠ []) (h : r.healthy (env 0).now [] = []) :
    (r.executeReadRetry env).sent = if r.fallbackToWrite then [.write] else [] := by
  obtain ⟨hsent, hfailed, hreturned⟩ := @tryEach_down env r r.reads.length h
  rw [AutoRouter.executeReadRetry, if_neg (by simpa using hreads)]
  generalize tryEach env r.reads.length { router := r } = s at hsent hfailed hreturned
  by_cases hfall : r.fallbackToWrite = true <;>
    simp [hfall, toWriter, hsent, hfailed, hreturned]

theorem sent_toWriter : s.sent <+: (s.toWriter env).sent := List.prefix_append _ _

/-- As long as one replica is up the statement goes to a replica first. -/
theorem executeReadRetry_up (hreads : r.reads ≠ []) (h : r.healthy (env 0).now [] ≠ []) :
    ∃ idx, [.read idx] <+: (r.executeReadRetry env).sent := by
  obtain ⟨router, idx, hpick⟩ := pickNextRead_some (o := env 0) h
  refine ⟨idx, ?_⟩
  obtain ⟨rounds, hrounds⟩ := Nat.exists_eq_succ_of_ne_zero
    (mt List.length_eq_zero_iff.mp hreads)
  have htry : [.read idx] <+: (tryEach env r.reads.length { router := r }).sent := by
    have hfirst : (attempt (env 0) idx { router := router, tried := [idx] }).sent =
        [.read idx] := sent_attempt
    rw [hrounds, tryEach]
    simp only [List.length_nil, hpick, List.nil_append]
    split
    · rw [hfirst]
    · rw [← hfirst]
      exact sent_tryEach
  rw [AutoRouter.executeReadRetry, if_neg (by simpa using hreads)]
  refine htry.trans ?_
  generalize tryEach env r.reads.length { router := r } = s
  have hagain : s.sent <+:
      (if s.failed then tryAgain env (List.range r.retryAttempts) s else s).sent := by
    split
    · exact sent_tryAgain
    · exact List.prefix_rfl
  dsimp only
  split
  · exact List.prefix_rfl
  · refine hagain.trans ?_
    generalize (if s.failed then tryAgain env (List.range r.retryAttempts) s else s) = t
    split
    · exact List.prefix_rfl
    · split
      · exact sent_toWriter
      · exact List.prefix_rfl

/-- A statement goes to the writer, and only there, where it is detected, or where no replica
can be asked and there is no replica at all or the writer stands in for them. -/
theorem sent_route {literal : Value → List Char} {stmt : Statement Value} :
    (r.route literal env stmt).sent = [.write] ↔
      isWriteStatement literal stmt = true ∨ isLockingSelect literal stmt = true ∨
        r.reads = [] ∨ r.healthy (env 0).now [] = [] ∧ r.fallbackToWrite = true := by
  rw [AutoRouter.route]
  by_cases hwrite : isWriteStatement literal stmt = true
  · simp [hwrite, toWriter]
  · by_cases hlocking : isLockingSelect literal stmt = true
    · simp [hlocking, toWriter]
    · by_cases hreads : r.reads = []
      · simp [hreads, toWriter]
      · rw [if_neg (by simp [hwrite, hlocking, hreads])]
        simp only [hwrite, hlocking, hreads, false_or]
        by_cases hup : r.healthy (env 0).now [] = []
        · rw [executeReadRetry_down hreads hup]
          simp [hup]
        · obtain ⟨idx, hidx⟩ := executeReadRetry_up hreads hup
          refine iff_of_false (fun h => ?_) (by simp [hup])
          rw [h] at hidx
          simp at hidx

end

end Routing

end Webshelf
