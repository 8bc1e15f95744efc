import Webshelf.Sessions.Tokens

/-!
# Hashes of refresh tokens

A call draws the hash of the token it is going to insert when it starts, and
nobody draws a hash twice: the UNIQUE index on `token_hash` is never violated,
and a hash names at most one row.
-/

namespace Webshelf

/-- The hash of the refresh token the call is going to insert. -/
def Call.draws : Call → Option TokenHash
  | login (.revoke _ _ hash _) | login (.revoking _ _ hash _ _) | login (.store _ _ hash _) =>
    some hash
  | rotate (.find _ newHash _ _ _) | rotate (.delete _ newHash _ _ _)
  | rotate (.deleting newHash _ _ _ _) | rotate (.store newHash _ _ _) => some newHash
  | _ => none

section
variable {cfg : Settings} {env : Env} {before : Call} {s : Stmt} {hash : TokenHash}
  {k : Except DbErr s.Reply → Call} {reply : Except DbErr s.Reply}

theorem Call.draws_step (issues : before.next cfg env = some ⟨s, k⟩)
    (hn : (k reply).draws = some hash) : before.draws = some hash ∨ hash = env.salt := by
  cases before with
  | login q =>
    cases q with
    | find =>
      cases issues
      dsimp only at hn
      (repeat' split at hn) <;> cases hn
      exact Or.inr rfl
    | revoke | revoking | store | commit =>
      cases issues
      dsimp only [deleted] at hn
      split at hn <;> first | exact Or.inl hn | cases hn
    | done => cases issues
  | rotate q =>
    cases q with
    | lock =>
      cases issues
      dsimp only at hn
      split at hn <;> cases hn
      exact Or.inr rfl
    | find | delete | deleting | store | commit =>
      cases issues
      dsimp only [deleted] at hn
      split at hn <;> first | exact Or.inl hn | cases hn
    | abort =>
      cases issues
      cases hn
    | done => cases issues
  | requestReset q | resendCode q | sendVerification q | modifyBalance q | updateUser q
  | autoVerify q | verifyEmail q | resetPassword q | changePassword q | revokeAll q | wxLogin q
  | logout q | getUser q | setOpenid q | checkTokenVersion q | createUser q | deleteUser q =>
    obtain ⟨k', _, rfl⟩ := Next.map_some issues
    cases hn

/-- The row a call inserts has the hash it has drawn, which it then no longer needs. -/
theorem Call.draws_of_insert {token : RefreshToken} {k : Except DbErr TokenId → Call}
    (issues : before.next cfg env = some ⟨.insertToken token, k⟩) :
    before.draws = some token.tokenHash ∧ ∀ reply, (k reply).draws = none := by
  cases next_insertToken issues with
  | login _ _ _ _ stored failed | rotate _ _ _ _ stored failed =>
    refine ⟨rfl, ?_⟩
    intro reply
    rcases reply with e | i
    · rw [failed]
      rfl
    · rw [stored]
      rfl

theorem Call.draws_initial (h : before.initial = true) : before.draws = none := by
  cases before <;> rename_i q <;> cases q <;> first | rfl | cases h

end

namespace World

/-- The UNIQUE index on `token_hash`, over every row that is there or being inserted. -/
def UniqueHashes (w : World) : Prop :=
  ∀ i j t t' st st', w.db.tokens.get i = some (t, st) → w.db.tokens.get j = some (t', st') →
    t.tokenHash = t'.tokenHash → i = j

structure Hashed (w : World) : Prop where
  unique : w.UniqueHashes
  rows : ∀ i t st, w.db.tokens.get i = some (t, st) → t.tokenHash < w.ticks ∧
    ∀ (c : CallId) (call : Call), w.calls[c]? = some call → call.draws ≠ some t.tokenHash
  drawn : ∀ (c : CallId) (call : Call) hash, w.calls[c]? = some call → call.draws = some hash →
    hash < w.ticks
  distinct : ∀ (c c' : CallId) (call call' : Call) hash, w.calls[c]? = some call →
    w.calls[c']? = some call' → call.draws = some hash → call'.draws = some hash → c = c'

/-- The table a run may start with: unique hashes, none of them still to be drawn. -/
structure HashedTokens (w : World) : Prop where
  unique : w.UniqueHashes
  old : ∀ i t st, w.db.tokens.get i = some (t, st) → t.tokenHash < w.ticks

theorem hashedTokens_ofRows {users : List UserModel} {token : RefreshToken} {ticks : Nat}
    (h : token.tokenHash < ticks) : (ofRows users [token] ticks).HashedTokens where
  unique i j t t' st st' hi hj _ := by
    have hi : i = 0 := Nat.lt_one_iff.mp (Heap.lt_next hi)
    have hj : j = 0 := Nat.lt_one_iff.mp (Heap.lt_next hj)
    rw [hi, hj]
  old i t st hi := by
    have h0 : i = 0 := Nat.lt_one_iff.mp (Heap.lt_next hi)
    subst h0
    cases hi
    exact h

variable {cfg : Settings} {w₀ w w' : World} {l : Label} {c : CallId} {before : Call} {s : Stmt}
  {input : Input} {applied : Bool} {k : Except DbErr s.Reply → Call}
  {reply : Except DbErr s.Reply} {db' : Db}

theorem Initial.hashed (h0 : w.Initial) (ht : w.HashedTokens) : w.Hashed where
  unique := ht.unique
  rows i t st hg := ⟨ht.old i t st hg, fun c _ hc => by rw [h0.calls] at hc; cases hc⟩
  drawn c _ _ hc := by rw [h0.calls] at hc; cases hc
  distinct c _ _ _ _ hc := by rw [h0.calls] at hc; cases hc

section
variable (hX : w.Hashed) (running : w.calls[c]? = some before)
  (issues : before.next cfg (input.env w.ticks) = some ⟨s, k⟩)
include running issues

/-- A hash that a call has drawn after a step it had drawn before it, or draws in it. -/
theorem draws_after {o : CallId} {call : Call} {hash : TokenHash}
    (hc : (w.after c before applied (k reply) db').calls[o]? = some call)
    (hd : call.draws = some hash) :
    (∃ call', w.calls[o]? = some call' ∧ call'.draws = some hash) ∨ o = c ∧ hash = w.ticks := by
  by_cases ho : o = c
  · subst ho
    rw [after_self running] at hc
    cases hc
    rcases Call.draws_step issues hd with h | h
    · exact Or.inl ⟨before, running, h⟩
    · exact Or.inr ⟨rfl, h⟩
  · rw [after_other ho] at hc
    exact Or.inl ⟨call, hc, hd⟩

include hX

theorem Hashed.exec (ran : w.db.exec c input.fails s = some (db', reply)) :
    (w.after c before (s.applied reply) (k reply) db').Hashed where
  unique i j t t' st st' hi hj heq := by
    have hs := Db.exec_tokens ran
    rcases hs.row hi with ⟨_, hi'⟩ | ⟨rfl, rfl⟩
    · rcases hs.row hj with ⟨_, hj'⟩ | ⟨rfl, rfl⟩
      · exact hX.unique i j t t' _ _ hi' hj' heq
      · have hnew := (hX.rows i t _ hi').2 c before running
        rw [heq] at hnew
        exact absurd (Call.draws_of_insert issues).1 hnew
    · rcases hs.row hj with ⟨_, hj'⟩ | ⟨_, rfl⟩
      · have hnew := (hX.rows j t' _ hj').2 c before running
        rw [← heq] at hnew
        exact absurd (Call.draws_of_insert issues).1 hnew
      · rfl
  rows i t st hi := by
    rcases (Db.exec_tokens ran).row hi with ⟨st', hi'⟩ | ⟨rfl, rfl⟩
    · obtain ⟨hlt, hn⟩ := hX.rows i t st' hi'
      refine ⟨Nat.lt_succ_of_lt hlt, ?_⟩
      intro o call hc hd
      rcases draws_after running issues hc hd with ⟨call', hc', hd'⟩ | ⟨_, hh⟩
      · exact hn o call' hc' hd'
      · rw [hh] at hlt
        exact absurd hlt (Nat.lt_irrefl _)
    · obtain ⟨hd₀, hnone⟩ := Call.draws_of_insert issues
      have hlt := hX.drawn c before _ running hd₀
      refine ⟨Nat.lt_succ_of_lt hlt, ?_⟩
      intro o call hc hd
      by_cases ho : o = c
      · subst ho
        rw [after_self running] at hc
        cases hc
        rw [hnone reply] at hd
        cases hd
      · rw [after_other ho] at hc
        exact ho (hX.distinct o c call before _ hc running hd hd₀)
  drawn o call hash hc hd := by
    rcases draws_after running issues hc hd with ⟨call', hc', hd'⟩ | ⟨_, rfl⟩
    · exact Nat.lt_succ_of_lt (hX.drawn o call' hash hc' hd')
    · exact Nat.lt_succ_self _
  distinct o o' call call' hash hc hc' hd hd' := by
    rcases draws_after running issues hc hd with ⟨call₁, hc₁, hd₁⟩ | ⟨rfl, rfl⟩ <;>
      rcases draws_after running issues hc' hd' with ⟨call₂, hc₂, hd₂⟩ | ⟨rfl, hh⟩
    · exact hX.distinct o o' call₁ call₂ hash hc₁ hc₂ hd₁ hd₂
    · exact absurd (hX.drawn o call₁ hash hc₁ hd₁) (hh ▸ Nat.lt_irrefl _)
    · exact absurd (hX.drawn o' call₂ _ hc₂ hd₂) (Nat.lt_irrefl _)
    · rfl

end

theorem Hashed.step (hX : w.Hashed) (ht : Transition cfg w l w') : w'.Hashed := by
  cases ht with
  | exec running issues ran => exact hX.exec running issues ran
  | expire =>
    exact ⟨hX.unique, fun i t st hg => ⟨Nat.lt_succ_of_lt (hX.rows i t st hg).1,
      (hX.rows i t st hg).2⟩, fun c call hash hc hd => Nat.lt_succ_of_lt
      (hX.drawn c call hash hc hd), hX.distinct⟩
  | @invoke call start =>
    have old {o : CallId} {call' : Call} {hash : TokenHash}
        (hc : (w.join call).calls[o]? = some call') (hd : call'.draws = some hash) :
        w.calls[o]? = some call' := by
      rcases join_calls hc with hc | rfl
      · exact hc
      · rw [Call.draws_initial start] at hd
        cases hd
    exact {
      unique := hX.unique
      rows := fun i t st hg => ⟨Nat.lt_succ_of_lt (hX.rows i t st hg).1,
        fun o call' hc hd => (hX.rows i t st hg).2 o call' (old hc hd) hd⟩
      drawn := fun o call' hash hc hd => Nat.lt_succ_of_lt (hX.drawn o call' hash (old hc hd) hd)
      distinct := fun o o' _ _ hash hc hc' hd hd' =>
        hX.distinct o o' _ _ hash (old hc hd) (old hc' hd') hd hd' }

/-- No row has the hash that a call has drawn and not stored yet. -/
theorem Hashed.findToken_drawn {hash : TokenHash} (hX : w.Hashed)
    (running : w.calls[c]? = some before) (hd : before.draws = some hash) :
    w.db.findToken c (fun t => t.tokenHash == hash) = none := by
  rw [Db.findToken, List.head?_eq_none_iff, List.eq_nil_iff_forall_not_mem]
  intro i hi
  obtain ⟨t, st, hg, _, ht⟩ := Heap.mem_snapshot.mp hi
  rw [← beq_iff_eq.mp ht] at hd
  exact (hX.rows i t st hg).2 c before running hd

end World

end Webshelf
