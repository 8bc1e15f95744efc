import Webshelf.Sessions.Hashes

/-!
# Exactly one exchange

A rotation holds the row it presents from its first statement on, and deletes
nothing else; so its COMMIT takes that row out of the table and puts the new one
in, and whatever else it returns it has changed nothing.
-/

namespace Webshelf

/-- The token a call of `rotate_refresh_token` locked, and the one it puts in its place. -/
structure Ticket where
  old : TokenId
  record : RefreshToken
  newHash : TokenHash
  expiresAt : Time

namespace Call

/-- The rows a rotation of `c` has deleted: the one it exchanges, from its DELETE on. -/
def Sheds (c : CallId) (get : TokenId → Option (RefreshToken × Hold CallId)) : Call → Prop
  | rotate (.deleting _ _ old _ waiting) => (∀ i ∈ waiting, i = old) ∧
    ∀ i t, get i = some (t, .deleted c) → i = old
  | rotate (.store _ _ old _) | rotate (.commit old _ _) =>
    ∀ i t, get i = some (t, .deleted c) → i = old
  | rotate (.lock _) | rotate (.find _ _ _ _ _) | rotate (.delete _ _ _ _ _) =>
    ∀ i t, get i ≠ some (t, .deleted c)
  | _ => True

/-- The rotation of `c` goes on with its ticket. -/
def Follows (c : CallId) (p : Ticket) (get : TokenId → Option (RefreshToken × Hold CallId)) :
    Call → Prop
  | rotate (.find _ newHash expiresAt old record) =>
    newHash = p.newHash ∧ expiresAt = p.expiresAt ∧ old = p.old ∧ record = p.record
  | rotate (.delete _ newHash expiresAt old user) | rotate (.deleting newHash expiresAt old user _)
  | rotate (.store newHash expiresAt old user) =>
    newHash = p.newHash ∧ expiresAt = p.expiresAt ∧ old = p.old ∧ user.id = p.record.userId
  | rotate (.commit old new user) => old = p.old ∧ user.id = p.record.userId ∧
    ∃ createdAt, get new = some (⟨user.id, p.newHash, p.expiresAt, createdAt⟩, .inserted c)
  | rotate .abort | rotate (.done _) => True
  | _ => False

section
variable {cfg : Settings} {env : Env} {before : Call} {s : Stmt} {c : CallId} {p : Ticket}
  {k : Except DbErr s.Reply → Call} {reply : Except DbErr s.Reply}
  {h h' : Heap CallId RefreshToken}

theorem Sheds.frame {get get' : TokenId → Option (RefreshToken × Hold CallId)}
    (hS : before.Sheds c get)
    (hf : ∀ i t, get' i = some (t, .deleted c) → get i = some (t, .deleted c)) :
    before.Sheds c get' := by
  cases before with
  | rotate q =>
    cases q with
    | deleting => exact ⟨hS.1, fun i t hg => hS.2 i t (hf i t hg)⟩
    | store | commit => exact fun i t hg => hS i t (hf i t hg)
    | lock | find | delete => exact fun i t hg => hS i t (hf i t hg)
    | abort | done => trivial
  | _ => exact hS

/-- A statement that is no DELETE adds no deleted row. -/
theorem kept_deleted (hs : TokensStep c s reply h h') (hp : ∀ p, s ≠ .deleteTokens p)
    (hw : ∀ is, s ≠ .resumeDelete is) (i : TokenId) (t : RefreshToken)
    (hg : h'.get i = some (t, .deleted c)) : h.get i = some (t, .deleted c) := by
  rcases hs.deleted hg with hg | ⟨p, rfl, _⟩ | ⟨is, rfl, _⟩
  · exact hg
  · exact absurd rfl (hp p)
  · exact absurd rfl (hw is)

theorem Sheds.step (issues : before.next cfg env = some ⟨s, k⟩) (hS : before.Sheds c h.get)
    (hE : before.Exchanging c h.get) (hs : TokensStep c s reply h h')
    (hu : ∀ i j t t' st st', h.get i = some (t, st) → h.get j = some (t', st') →
      t.tokenHash = t'.tokenHash → i = j) : (k reply).Sheds c h'.get := by
  cases before with
  | rotate q =>
    cases q with
    | lock =>
      cases issues
      have hkept := kept_deleted hs nofun nofun
      dsimp only
      split
      · trivial
      · trivial
      · exact fun i t hg => hS i t (hkept i t hg)
    | find =>
      cases issues
      have hkept := kept_deleted hs nofun nofun
      dsimp only
      split
      · trivial
      · trivial
      · exact fun i t hg => hS i t (hkept i t hg)
    | delete oldHash _ _ old =>
      obtain ⟨token, hh, _, hold⟩ := hE
      cases issues
      have hsnap : ∀ i ∈ h.snapshot c fun t => t.tokenHash == oldHash, i = old := fun i hi => by
        obtain ⟨t, st, hg, _, ht⟩ := Heap.mem_snapshot.mp hi
        exact hu i old t token st _ hg hold ((beq_iff_eq.mp ht).trans hh.symm)
      have hdel : ∀ i t, h'.get i = some (t, .deleted c) → i = old := fun i t hg => by
        rcases hs.deleted hg with hg | ⟨p, hp, hi⟩ | ⟨_, hw, _⟩
        · exact absurd hg (hS i t)
        · cases hp
          exact hsnap i hi
        · cases hw
      rcases reply with e | rest
      · trivial
      · have hrest : ∀ i ∈ rest, i = old := by
          intro i hi
          rw [hs.swept.1] at hi
          exact hsnap i (Heap.deleteScan_sub hi)
        cases rest with
        | nil => exact hdel
        | cons => exact ⟨hrest, hdel⟩
    | deleting _ _ old _ waiting =>
      obtain ⟨hwait, hold⟩ := hS
      cases issues
      have hdel : ∀ i t, h'.get i = some (t, .deleted c) → i = old := fun i t hg => by
        rcases hs.deleted hg with hg | ⟨p, hp, _⟩ | ⟨_, hw, hi⟩
        · exact hold i t hg
        · cases hp
        · cases hw
          exact hwait i hi
      rcases reply with e | rest
      · trivial
      · have hrest : ∀ i ∈ rest, i = old := by
          intro i hi
          rw [hs.resumed.1] at hi
          exact hwait i (Heap.deleteScan_sub hi)
        cases rest with
        | nil => exact hdel
        | cons => exact ⟨hrest, hdel⟩
    | store =>
      cases issues
      have hkept := kept_deleted hs nofun nofun
      dsimp only
      split
      · trivial
      · exact fun i t hg => hS i t (hkept i t hg)
    | commit | abort =>
      cases issues
      dsimp only
      (repeat' split) <;> trivial
    | done => cases issues
  | requestReset q | resendCode q | sendVerification q | modifyBalance q | updateUser q
  | autoVerify q | verifyEmail q | resetPassword q | changePassword q | login q | wxLogin q
  | revokeAll q | logout q | getUser q | setOpenid q | checkTokenVersion q | createUser q
  | deleteUser q =>
    obtain ⟨k', _, rfl⟩ := Next.map_some issues
    trivial

theorem Follows.frame {get get' : TokenId → Option (RefreshToken × Hold CallId)}
    (hF : before.Follows c p get)
    (hf : ∀ i t s, get i = some (t, s) → s.owner = some c → get' i = get i) :
    before.Follows c p get' := by
  cases before with
  | rotate q =>
    cases q with
    | commit =>
      obtain ⟨ho, hu, created, hg⟩ := hF
      exact ⟨ho, hu, created, (hf _ _ _ hg rfl).trans hg⟩
    | lock | find | delete | deleting | store | abort | done => exact hF
  | _ => exact hF.elim

theorem Follows.step (issues : before.next cfg env = some ⟨s, k⟩) (hF : before.Follows c p h.get)
    (hs : TokensStep c s reply h h') (hk : s.Keyed reply) : (k reply).Follows c p h'.get := by
  cases before with
  | rotate q =>
    cases q with
    | lock => exact hF.elim
    | find =>
      obtain ⟨hn, he, ho, hr⟩ := hF
      cases issues
      rcases reply with _ | _ | user
      · trivial
      · trivial
      · exact ⟨hn, he, ho, hr ▸ hk⟩
    | delete | deleting =>
      cases issues
      dsimp only [deleted]
      split
      · trivial
      · exact hF
      · exact hF
    | store =>
      obtain ⟨hn, he, ho, hu⟩ := hF
      cases issues
      cases hs with
      | stay other => cases other
      | fail => trivial
      | insert =>
        refine ⟨ho, hu, env.now, ?_⟩
        rw [← hn, ← he]
        exact Heap.insert_get_next
    | commit | abort =>
      cases issues
      dsimp only
      (repeat' split) <;> trivial
    | done => cases issues
  | _ => exact hF.elim

/-- Only the COMMIT of a rotation, if it goes through, changes the committed rows; the
rotation then returns the user. -/
theorem rotate_commits {q : Rotate} {k : Except DbErr s.Reply → Call}
    (issues : (rotate q).next cfg env = some ⟨s, k⟩) :
    (∀ id p, s ≠ .deleteUser id p) ∧
      (s ≠ .commit ∧ (∀ token, k reply ≠ rotate (.done (.ok (some token)))) ∨
        ∃ old new user, q = .commit old new user) := by
  cases q with
  | commit => cases issues; exact ⟨nofun, Or.inr ⟨_, _, _, rfl⟩⟩
  | done => cases issues
  | lock | find | delete | deleting | store | abort =>
    cases issues
    refine ⟨nofun, Or.inl ⟨nofun, ?_⟩⟩
    intro token
    dsimp only [deleted]
    (repeat' split) <;> exact nofun

end

end Call

namespace World

structure Shedding (w : World) : Prop where
  owned : ∀ i t st o, w.db.tokens.get i = some (t, st) → st.owner = some o → o < w.calls.length
  sheds : ∀ (c : CallId) (call : Call), w.calls[c]? = some call → call.Sheds c w.db.tokens.get

/-- The call of the rotation goes on with its ticket. -/
def Following (w : World) (c : CallId) (p : Ticket) : Prop :=
  ∃ call, w.calls[c]? = some call ∧ call.Follows c p w.db.tokens.get

/-- The number `old` was given to `record`, which may be gone. -/
def Numbered (w : World) (old : TokenId) (record : RefreshToken) : Prop :=
  old < w.db.tokens.next ∧ ∀ t st, w.db.tokens.get old = some (t, st) → t = record

/-- The committed refresh tokens of `w'` are those of `w` with `token` under the new
number `new` in the place of `record`. -/
def Exchanged (w w' : World) (old new : TokenId) (record token : RefreshToken) : Prop :=
  w.db.tokens.committed old = some record ∧ w.db.tokens.committed new = none ∧
    ∀ i, w'.db.tokens.committed i =
      if i = new then some token else if i = old then none else w.db.tokens.committed i

variable {cfg : Settings} {w₀ w w' : World} {l : Label} {c : CallId} {before : Call} {s : Stmt}
  {input : Input} {applied : Bool} {k : Except DbErr s.Reply → Call}
  {reply : Except DbErr s.Reply} {db' : Db} {p : Ticket} {old new : TokenId}
  {record : RefreshToken}

theorem Initial.shedding (h0 : w.Initial) : w.Shedding where
  owned i t st o hg ho := by rw [h0.tokens i t st hg] at ho; cases ho
  sheds c call hc := by rw [h0.calls] at hc; cases hc

theorem Shedding.exec (hX : w.Hashed) (hH : w.Held) (hS : w.Shedding)
    (running : w.calls[c]? = some before)
    (issues : before.next cfg (input.env w.ticks) = some ⟨s, k⟩)
    (ran : w.db.exec c input.fails s = some (db', reply)) :
    (w.after c before (s.applied reply) (k reply) db').Shedding where
  owned i t st o hg ho := by
    simp only [World.after, List.length_set]
    by_cases hoc : o = c
    · subst hoc
      exact (List.getElem?_eq_some_iff.mp running).1
    · exact hS.owned i t st o (((Db.exec_tokens ran).toStep i).owner_other hg ho hoc) ho
  sheds o call hc := by
    by_cases ho : o = c
    · subst ho
      rw [after_self running] at hc
      cases hc
      exact (hS.sheds o before running).step issues (hH.exchanging o before running)
        (Db.exec_tokens ran) hX.unique
    · rw [after_other ho] at hc
      refine (hS.sheds o call hc).frame ?_
      intro i t hg
      exact ((Db.exec_tokens ran).toStep i).owner_other hg rfl ho

theorem Shedding.step (hX : w.Hashed) (hH : w.Held) (hS : w.Shedding)
    (ht : Transition cfg w l w') : w'.Shedding := by
  cases ht with
  | exec running issues ran => exact hS.exec hX hH running issues ran
  | expire => exact ⟨hS.owned, hS.sheds⟩
  | @invoke call start =>
    constructor
    · intro i t st o hg ho
      have hlt := hS.owned i t st o hg ho
      simp only [join, List.length_append, List.length_singleton]
      exact Nat.lt_succ_of_lt hlt
    · intro o call' hc
      simp only [join] at hc
      rw [List.getElem?_append] at hc
      split at hc
      · exact hS.sheds o call' hc
      · rename_i hge
        rw [List.getElem?_singleton] at hc
        split at hc <;> cases hc
        cases call with
        | rotate q =>
          cases q <;> first | cases start
          exact fun i t hg => hge (hS.owned i t _ o hg rfl)
        | _ => trivial

/-- What holds of the refresh tokens in every state of every run. -/
theorem tokens_reached (h0 : w₀.Initial) (ht : w₀.HashedTokens)
    (h : Runs.Reaches (World.step cfg) Runs.Free w₀ w) :
    w.Sound ∧ w.Hashed ∧ w.Held ∧ w.Shedding :=
  h.invariant (I := fun w => w.Sound ∧ w.Hashed ∧ w.Held ∧ w.Shedding)
    ⟨h0.sound, h0.hashed ht, h0.held, h0.shedding⟩ fun _ _ _ ⟨hs, hX, hH, hS⟩ _ hstep =>
      have ht := step_transition hstep
      ⟨hs.step ht, hX.step ht, hH.step hs ht, hS.step hX hH ht⟩

theorem Following.step (hw : w.Sound) (hF : w.Following c p) (ht : Transition cfg w l w') :
    w'.Following c p := by
  obtain ⟨call, hc, hf⟩ := hF
  cases ht with
  | invoke => exact ⟨call, join_old hc, hf⟩
  | expire => exact ⟨call, hc, hf⟩
  | @exec o _ before _ _ _ _ running issues ran =>
    by_cases ho : c = o
    · subst ho
      rw [running] at hc
      cases hc
      exact ⟨_, after_self running,
        hf.step issues (Db.exec_tokens ran) (hw.keyed_reply running issues ran)⟩
    · refine ⟨call, by rw [after_other ho]; exact hc, hf.frame ?_⟩
      intro i t st hg hown
      exact (token_other ran hg hown ho).trans hg.symm

theorem Numbered.step (hN : w.Numbered old record) (ht : Transition cfg w l w') :
    w'.Numbered old record := by
  cases ht with
  | invoke => exact hN
  | expire => exact hN
  | exec running issues ran =>
    have hs := Db.exec_tokens ran
    refine ⟨Nat.lt_of_lt_of_le hN.1 hs.next_le, ?_⟩
    intro t st hg
    rcases hs.row hg with ⟨st', hg'⟩ | ⟨_, hnext⟩
    · exact hN.2 t st' hg'
    · exact absurd hN.1 (hnext ▸ Nat.lt_irrefl _)

/-- A call that has followed its ticket until it is at its COMMIT exchanges the row. -/
theorem exchanged_of_commit {user : UserModel} (hH : w.Held) (hS : w.Shedding)
    (hF : w.Following c p) (hN : w.Numbered p.old p.record)
    (running : w.calls[c]? = some (.rotate (.commit old new user)))
    (hdb : db'.tokens = w.db.tokens.commit c) :
    ∃ createdAt, w.Exchanged { w with db := db' } p.old new p.record
      ⟨p.record.userId, p.newHash, p.expiresAt, createdAt⟩ := by
  obtain ⟨call, hc, hf⟩ := hF
  rw [running] at hc
  cases hc
  obtain ⟨rfl, hu, createdAt, hnew⟩ := hf
  rw [hu] at hnew
  obtain ⟨token, _, hold⟩ := hH.exchanging c _ running
  have htoken := hN.2 token _ hold
  subst htoken
  have hsheds : ∀ i t, w.db.tokens.get i = some (t, .deleted c) → i = p.old :=
    hS.sheds c _ running
  refine ⟨createdAt, ?_, ?_, ?_⟩
  · simp [Heap.committed, hold, Heap.stored]
  · simp [Heap.committed, hnew, Heap.stored]
  · intro i
    change db'.tokens.committed i = _
    rw [hdb]
    split
    · rename_i hi
      subst hi
      exact Heap.committed_commit_inserted hnew
    · rename_i hin
      split
      · rename_i hi
        subst hi
        exact Heap.committed_commit_deleted hold
      · rename_i hio
        refine Heap.committed_commit_other (fun a hg => ?_) (fun a hg => hio (hsheds i a hg))
        obtain ⟨call, hc, hst⟩ := hH.inserted i a c hg
        rw [running] at hc
        cases hc
        cases hst
        exact hin rfl

/-! ## Every run -/

/-- No token is exchanged twice, and a rotation that has returned Some has exchanged one. -/
structure ExchangesOnce (w : World) : Prop where
  once : ∀ t t' c c' old new new' u u' role role' v v',
    (t, Event.tokenRotated c old new u role v) ∈ w.trace →
    (t', Event.tokenRotated c' old new' u' role' v') ∈ w.trace → t = t' ∧ c = c' ∧ new = new'
  returned : ∀ c token, w.calls[c]? = some (.rotate (.done (.ok (some token)))) →
    ∃ t old new u role v, (t, Event.tokenRotated c old new u role v) ∈ w.trace

/-- A step of a rotation after which it has not returned Some leaves the committed tokens alone. -/
def OthersKeep (cfg : Settings) (w : World) : Prop :=
  ∀ c q input w', w.calls[c]? = some (.rotate q) → w.step cfg (.exec c input) = some w' →
    (∀ token, w'.calls[c]? ≠ some (.rotate (.done (.ok (some token))))) →
    w'.db.tokens.committed = w.db.tokens.committed

/-- A rotation that is at its first statement and in the end returns Some has exchanged a row
with the presented hash that had not expired for one with the hash and the expiry it drew. -/
def ExchangesPresented (cfg : Settings) (w : World) : Prop :=
  ∀ c oldHash input input' w₁ w₂ w₃ token, w.calls[c]? = some (.rotate (.lock oldHash)) →
    w.step cfg (.exec c input) = some w₁ →
    Runs.Reaches (World.step cfg) Runs.Free w₁ w₂ → w₂.step cfg (.exec c input') = some w₃ →
    w₃.calls[c]? = some (.rotate (.done (.ok (some token)))) →
    ∃ old new record createdAt role v, record.tokenHash = oldHash ∧
      input.now < record.expiresAt ∧
      w₂.Exchanged w₃ old new record ⟨record.userId, w.ticks,
        input.now + seconds cfg.refreshTokenExpirySeconds, createdAt⟩ ∧
      (w₂.ticks, Event.tokenRotated c old new record.userId role v) ∈ w₃.trace

theorem Initial.exchangesOnce (h0 : w.Initial) : w.ExchangesOnce where
  once t t' c c' old new new' u u' role role' v v' he := by rw [h0.trace] at he; cases he
  returned c token hc := by rw [h0.calls] at hc; cases hc

/-- A rotation returns Some at its COMMIT only. -/
theorem returned_step {token : JwtClaims} (running : w.calls[c]? = some before)
    (issues : before.next cfg (input.env w.ticks) = some ⟨s, k⟩)
    (hd : k reply = .rotate (.done (.ok (some token)))) :
    s.applied reply = true ∧ ∃ old new user, before = .rotate (.commit old new user) := by
  cases before with
  | rotate q =>
    cases q with
    | commit =>
      cases issues
      cases reply with
      | error => cases hd
      | ok => exact ⟨rfl, _, _, _, rfl⟩
    | done => cases issues
    | lock | find | delete | deleting | store | abort =>
      cases issues
      dsimp only [deleted] at hd
      (repeat' split at hd) <;> cases hd
  | requestReset q | resendCode q | sendVerification q | modifyBalance q | updateUser q
  | autoVerify q | verifyEmail q | resetPassword q | changePassword q | login q | wxLogin q
  | revokeAll q | logout q | getUser q | setOpenid q | checkTokenVersion q | createUser q
  | deleteUser q =>
    obtain ⟨k', _, rfl⟩ := Next.map_some issues
    cases hd

/-- A row that is still in hand has not been exchanged before this step. -/
theorem exchanged_now {t : Nat} {c' : CallId} {call : Call} {u : UserId} {role : String} {v : Int}
    {r : RefreshToken × Hold CallId} (hH : w.Held) (hg : w.db.tokens.get old = some r)
    (he : (t, Event.tokenRotated c' old new u role v) ∈
      (w.after c before applied call db').trace) : t = w.ticks := by
  rcases mem_after.mp he with h | ⟨ht, _⟩
  · rw [(hH.rotated _ _ _ _ _ _ _ h).1] at hg
    cases hg
  · exact ht

theorem ExchangesOnce.step (hH : w.Held) (hO : w.ExchangesOnce) (ht : Transition cfg w l w') :
    w'.ExchangesOnce := by
  cases ht with
  | expire => exact ⟨hO.once, hO.returned⟩
  | invoke start =>
    refine ⟨hO.once, ?_⟩
    intro c token hc
    rcases join_calls hc with hc | rfl
    · exact hO.returned c token hc
    · cases start
  | @exec c input before s k db' reply running issues ran =>
    constructor
    · intro t t' c₁ c₂ old new new' u u' role role' v v' he he'
      rcases exchanged_after hH running he with h | ⟨rfl, _, ⟨user, hb, _⟩, _, _, hg⟩ <;>
        rcases exchanged_after hH running he' with h' | ⟨rfl, _, ⟨user', hb', _⟩, _, _, hg'⟩
      · exact hO.once _ _ _ _ _ _ _ _ _ _ _ _ _ h h'
      · rw [(hH.rotated _ _ _ _ _ _ _ h).1] at hg'
        cases hg'
      · rw [(hH.rotated _ _ _ _ _ _ _ h').1] at hg
        cases hg
      · rw [hb] at hb'
        cases hb'
        exact ⟨(exchanged_now hH hg he).trans (exchanged_now hH hg he').symm, rfl, rfl⟩
    · intro o token hc
      by_cases ho : o = c
      · subst ho
        rw [after_self running] at hc
        obtain ⟨ok, old, new, user, rfl⟩ := returned_step running issues (Option.some.inj hc)
        refine ⟨w.ticks, old, new, user.id, user.role, user.tokenVersion,
          mem_after.mpr (.inr ⟨rfl, ?_⟩)⟩
        rw [ok]
        exact mem_observe.mpr (.inr (.inl ⟨rfl, List.mem_singleton_self _⟩))
      · rw [after_other ho] at hc
        obtain ⟨t, old, new, u, role, v, he⟩ := hO.returned o token hc
        exact ⟨t, old, new, u, role, v, mem_after.mpr (.inl he)⟩

/-- The first statement of a rotation takes its ticket, or the rotation ends without one. -/
theorem follows_of_lock {oldHash : TokenHash} (hH : w.Held)
    (running : w.calls[c]? = some (.rotate (.lock oldHash)))
    (ht : Transition cfg w (.exec c input) w') :
    (∃ p : Ticket, p.record.tokenHash = oldHash ∧ input.now < p.record.expiresAt ∧
      p.newHash = w.ticks ∧ p.expiresAt = input.now + seconds cfg.refreshTokenExpirySeconds ∧
      w'.Following c p ∧ w'.Numbered p.old p.record) ∨ ∀ p, w'.Following c p := by
  cases ht with
  | @exec _ _ _ _ _ db' reply running' issues ran =>
    rw [running] at running'
    cases running'
    cases issues
    rcases reply with _ | _ | ⟨old, record⟩
    · exact Or.inr fun p => ⟨_, after_self running, trivial⟩
    · exact Or.inr fun p => ⟨_, after_self running, trivial⟩
    · have hlt := Db.exec_lockToken ran
      have hs := Db.exec_tokens ran
      have hnew : ∀ t, w.db.tokens.get old ≠ some (t, .inserted c) := fun t hg => by
        obtain ⟨call, hc, hst⟩ := hH.inserted old t c hg
        rw [running] at hc
        cases hc
        cases hst
      generalize hh : w.db.tokens = h at hs hnew
      generalize hh' : db'.tokens = h' at hs
      cases hs with
      | stay other => cases other
      | lock seen free visible =>
        have hg := Heap.lock_get seen free visible fun he => hnew _ (he ▸ seen)
        refine Or.inl ⟨⟨old, record, _, _⟩, rfl, hlt, rfl, rfl,
          ⟨_, after_self running, rfl, rfl, rfl, rfl⟩, ?_, ?_⟩
        · change old < db'.tokens.next
          rw [hh']
          exact Heap.lt_next hg
        · intro t st ht
          change db'.tokens.get old = some (t, st) at ht
          rw [hh', hg] at ht
          cases ht
          rfl

theorem othersKeep : w.OthersKeep cfg := by
  intro c q input w' running hstep hn
  cases step_transition hstep with
  | @exec _ _ _ s k db' reply running' issues ran =>
    rw [running] at running'
    cases running'
    have hs := Db.exec_tokens ran
    obtain ⟨hd, hc⟩ : (∀ id p, s ≠ .deleteUser id p) ∧ (s ≠ .commit ∧
        (∀ token, k reply ≠ .rotate (.done (.ok (some token)))) ∨ _) := Call.rotate_commits issues
    refine funext fun i => hs.committed_eq i ?_ hd
    rcases hc with ⟨hc, _⟩ | ⟨old, new, user, rfl⟩
    · exact Or.inl hc
    · -- the COMMIT has failed
      cases issues
      cases reply with
      | error e => exact Or.inr ⟨e, rfl⟩
      | ok => exact absurd (after_self running) (hn _)

theorem exchangesPresented (h0 : w₀.Initial) (ht : w₀.HashedTokens)
    (h : Runs.Reaches (World.step cfg) Runs.Free w₀ w) : w.ExchangesPresented cfg := by
  intro c oldHash input input' w₁ w₂ w₃ token running hlock hreach hlast hdone
  have hr₁ : Runs.Reaches (World.step cfg) Runs.Free w₀ w₁ := h.trans (.single trivial hlock)
  obtain ⟨_, _, hH, _⟩ := tokens_reached h0 ht h
  obtain ⟨_, _, hH₂, hS₂⟩ := tokens_reached h0 ht (hr₁.trans hreach)
  have hfollow (p : Ticket) (hF : w₁.Following c p) : w₂.Following c p :=
    hreach.invariant_of (I := fun w => w.Following c p) hF fun a l b hr hF _ hstep =>
      hF.step (tokens_reached h0 ht (hr₁.trans hr)).1 (step_transition hstep)
  cases step_transition hlast with
  | @exec _ _ before s k db' reply running₂ issues ran =>
    rw [after_self running₂] at hdone
    obtain ⟨ok, old, new, user, rfl⟩ := returned_step running₂ issues (Option.some.inj hdone)
    rcases follows_of_lock hH running (step_transition hlock) with
      ⟨p, hhash, hlt, hnew, hexp, hF, hN⟩ | hF
    · have hN₂ : w₂.Numbered p.old p.record :=
        hreach.invariant (I := fun w => w.Numbered p.old p.record) hN fun _ _ _ hN _ hstep =>
          hN.step (step_transition hstep)
      have hs := Db.exec_tokens ran
      cases issues
      generalize hh : w₂.db.tokens = h at hs
      generalize hh' : db'.tokens = h' at hs
      cases hs with
      | stay other => cases other
      | fail => cases ok
      | commit =>
        obtain ⟨createdAt, hex⟩ := exchanged_of_commit hH₂ hS₂ (hfollow p hF) hN₂ running₂
          (hh'.trans (congrArg _ hh.symm))
        have hold : old = p.old ∧ user.id = p.record.userId := by
          obtain ⟨_, hc, hf⟩ := hfollow p hF
          rw [running₂] at hc
          cases hc
          exact ⟨hf.1, hf.2.1⟩
        rw [hnew, hexp] at hex
        refine ⟨p.old, new, p.record, createdAt, user.role, user.tokenVersion, hhash, hlt, hex,
          mem_after.mpr (.inr ⟨rfl, mem_observe.mpr (.inr (.inl ⟨ok, ?_⟩))⟩)⟩
        rw [← hold.1, ← hold.2]
        exact List.mem_singleton_self _
    · -- a rotation that has returned follows every ticket, one at its COMMIT only one hash
      have hone (hash : TokenHash) : ∃ u e a s,
          w₂.db.tokens.get new = some (⟨u, hash, e, a⟩, s) := by
        obtain ⟨_, hc, hf⟩ := hfollow ⟨old, ⟨0, 0, 0, 0⟩, hash, 0⟩ (hF _)
        rw [running₂] at hc
        cases hc
        obtain ⟨_, _, createdAt, hg⟩ := hf
        exact ⟨_, _, _, _, hg⟩
      obtain ⟨_, _, _, _, hg⟩ := hone 0
      obtain ⟨_, _, _, _, hg'⟩ := hone 1
      rw [hg] at hg'
      cases hg'

/-- Refresh-token rotation is exactly-once, in every order of the statements of any calls. -/
theorem rotations_exchange_once (h0 : w₀.Initial) (ht : w₀.HashedTokens)
    (h : Runs.Reaches (World.step cfg) Runs.Free w₀ w) :
    w.ExchangesOnce ∧ w.OthersKeep cfg ∧ w.ExchangesPresented cfg := by
  refine ⟨?_, othersKeep, exchangesPresented h0 ht h⟩
  exact h.invariant_of h0.exchangesOnce fun a l b hr hO _ hstep =>
    hO.step (tokens_reached h0 ht hr).2.2.1 (step_transition hstep)

theorem hashedTokens_signedIn : signedIn.HashedTokens :=
  hashedTokens_ofRows Nat.zero_lt_one

/-- One token is presented twice; the second rotation waits for the first one and finds it gone. -/
def presentedTwice : List Label :=
  [.invoke (.rotate (.lock 0)), .invoke (.rotate (.lock 0)), .exec 0 {}, .exec 0 {}, .exec 0 {},
    .exec 0 {}, .exec 0 {}, .exec 1 {}, .exec 1 {}]

theorem rotations_exchange_once_twice :
    let w := (Runs.run (World.step .plain) Runs.Free signedIn presentedTwice).get (by decide)
    w.ExchangesOnce ∧ w.OthersKeep .plain ∧ w.ExchangesPresented .plain :=
  rotations_exchange_once initial_signedIn hashedTokens_signedIn (Runs.reaches_run_get _)

end World

end Webshelf
