import Webshelf.Handlers.Auth

/-!
# Nothing tells an account from none

A request without the account's password or code gets the same answer whether
the account is not there, unverified or verified, and whatever its counters,
codes and cooldowns are. What a failed request changes of the account is of no
account to the next one.
-/

namespace Webshelf

/-- The table keeps its constraints and nobody has a row in hand. -/
structure Orderly (users : UserId → Versioned CallId UserModel) : Prop where
  free : ∀ u, (users u).pending = none
  keyed : ∀ u m, (users u).committed = some m → m.id = u
  range : ∀ u m, (users u).committed = some m → m.inRange = true
  distinct : ∀ u u' m m', u' ≠ u → (users u).committed = some m →
    (users u').committed = some m' → m.clashes m' = false

/-- No account of the address has `plain` as the text behind the hash. -/
def Misses (users : UserId → Versioned CallId UserModel) (email plain : String)
    (stored : UserModel → Option Argon2) : Prop :=
  ∀ u m h, (users u).committed = some m → m.email = email → stored m = some h →
    Argon2.verify plain h = false

section
variable {db : Db} {c : CallId} {p : UserModel → Bool} {set : UserModel → UserModel}
  {m : UserModel} {u : UserId}

/-- A row the lookup finds is in the table. -/
theorem Orderly.found (h : Orderly db.users) (hf : db.findUser c p = some m) :
    (db.users m.id).committed = some m ∧ p m = true := by
  obtain ⟨u, _, hu⟩ := List.exists_of_findSome?_eq_some hf
  obtain ⟨hv, hp⟩ := Option.filter_eq_some_iff.mp hu
  rw [Versioned.view_free (h.free u)] at hv
  exact ⟨h.keyed u m hv ▸ hv, hp⟩

/-- A write that keeps the id, the address and the openid meets no other row. -/
theorem Orderly.clashing (h : Orderly db.users) {m' : UserModel}
    (hm : (db.users u).committed = some m)
    (hemail : m'.email = m.email) (hopenid : m'.wxOpenid = m.wxOpenid) :
    db.clashing u m' = [] := by
  have hsame : m'.clashes = m.clashes := by
    funext x
    simp [UserModel.clashes, hemail, hopenid]
  unfold Db.clashing
  rw [List.filter_eq_nil_iff]
  intro u' _
  simp only [hsame, h.free u', Option.any_none, Bool.or_false, Bool.and_eq_true,
    decide_eq_true_eq, not_and, Option.any_eq_true, not_exists]
  intro hne x hx
  rw [h.distinct u u' m x hne hm hx]
  exact Bool.false_ne_true

theorem Orderly.put (h : Orderly db.users) (hm : (db.users u).committed = some m) {m' : UserModel}
    (hid : m'.id = m.id) (hemail : m'.email = m.email) (hopenid : m'.wxOpenid = m.wxOpenid)
    (hrange : m'.inRange = true) : Orderly (db.storeUser c .auto u m').users := by
  have hrow {u' : UserId} {x : UserModel}
      (hx : ((db.storeUser c .auto u m').users u').committed = some x) :
      ∃ y, (db.users u').committed = some y ∧ x.id = y.id ∧ x.email = y.email ∧
        x.wxOpenid = y.wxOpenid ∧ x.inRange = true := by
    by_cases hu : u' = u
    · subst hu
      simp only [Db.storeUser, Db.setUser, Function.update_self, Versioned.put_committed,
        Option.some.injEq] at hx
      subst hx
      exact ⟨m, hm, hid, hemail, hopenid, hrange⟩
    · rw [Db.storeUser, Db.setUser_ne hu] at hx
      exact ⟨x, hx, rfl, rfl, rfl, h.range u' x hx⟩
  refine ⟨?_, ?_, ?_, ?_⟩
  · intro u'
    by_cases hu : u' = u
    · subst hu
      simp [Db.storeUser, Db.setUser]
    · rw [Db.storeUser, Db.setUser_ne hu]
      exact h.free u'
  · intro u' x hx
    obtain ⟨y, hy, hxy, _⟩ := hrow hx
    exact hxy.trans (h.keyed u' y hy)
  · intro u' x hx
    obtain ⟨_, _, _, _, _, hr⟩ := hrow hx
    exact hr
  · intro u₁ u₂ x₁ x₂ hne hx₁ hx₂
    obtain ⟨y₁, hy₁, _, he₁, ho₁, _⟩ := hrow hx₁
    obtain ⟨y₂, hy₂, _, he₂, ho₂, _⟩ := hrow hx₂
    have := h.distinct u₁ u₂ y₁ y₂ hne hy₁ hy₂
    simpa [UserModel.clashes, he₁, ho₁, he₂, ho₂] using this

/-- A guarded UPDATE of other columns than the id, the address and the openid comes back, with
the row as written or without one. -/
theorem Orderly.update (h : Orderly db.users) (hid : ∀ m, (set m).id = m.id)
    (hemail : ∀ m, (set m).email = m.email) (hopenid : ∀ m, (set m).wxOpenid = m.wxOpenid)
    (hrange : ∀ m, p m = true → m.inRange = true → (set m).inRange = true) :
    ∃ db' reply, db.exec c false (.updateUser .auto u p set) = some (db', .ok reply) ∧
      Orderly db'.users := by
  cases hm : (db.users u).committed with
  | none =>
    refine ⟨db, none, ?_, h⟩
    simp [Db.exec, Db.eval, Db.updateUser, Db.seen, Conn.sees, hm]
  | some m =>
    cases hp : p m with
    | false =>
      refine ⟨db, none, ?_, h⟩
      simp [Db.exec, Db.eval, Db.updateUser, Db.seen, Conn.sees, hm, hp]
    | true =>
      have hr := hrange m hp (h.range u m hm)
      refine ⟨db.storeUser c .auto u (set m), some (set m), ?_,
        h.put hm (hid m) (hemail m) (hopenid m) hr⟩
      simp [Db.exec, Db.eval, Db.updateUser, Db.seen, Conn.sees, hm, hp, Db.blocked, h.free u, hr,
        h.clashing hm (hemail m) (hopenid m)]

end

/-- The request carries neither the password nor the code of an account. -/
def AuthRequest.Wrong (cfg : Settings) (w : World) : AuthRequest → Prop
  | login email password _ =>
    Misses w.db.users (cfg.toLowercase (cfg.toLowercase email)) password (some ·.passwordHash)
  | verifyEmail email code =>
    Misses w.db.users (cfg.toLowercase (cfg.toLowercase email)) code (·.verification.hash)
  | resetPassword email code _ =>
    Misses w.db.users (cfg.toLowercase (cfg.toLowercase email)) code (·.passwordReset.hash)
  | resendCode _ | forgotPassword _ => True

namespace Call

/-- A call without the password or the code of an account, on the way to its denial. -/
def Failing (cfg : Settings) (users : UserId → Versioned CallId UserModel) : Call → Prop
  | login (.find request) =>
    Misses users (cfg.toLowercase request.email) request.password (some ·.passwordHash)
  | login (.done r) => r = .error .invalidCredentials
  | verifyEmail (.find email code) =>
    Misses users (cfg.toLowercase email) code (·.verification.hash)
  | verifyEmail (.claim _ h code) => Argon2.verify code h = false
  | verifyEmail (.done r) => r = .error .invalidOrExpired ∨ r = .error .tooManyAttempts
  | resendCode (.find _) | resendCode (.store _ _ _ _ _) | requestReset (.find _)
  | requestReset (.store _ _ _ _ _) => True
  | resendCode (.done r) | requestReset (.done r) => r = .ok () ∨ r = .error .tooSoon
  | resetPassword (.find email code _) =>
    Misses users (cfg.toLowercase email) code (·.passwordReset.hash)
  | resetPassword (.claim _ h code _) => Argon2.verify code h = false
  | resetPassword (.done r) => r = .error .invalidOrExpired ∨ r = .error .tooManyAttempts
  | _ => False

/-- The statements a call without the password or the code still has before it. -/
def toGo : Call → Nat
  | login (.find _) => 1
  | verifyEmail (.find _ _) | resendCode (.find _) | requestReset (.find _)
  | resetPassword (.find _ _ _) => 2
  | verifyEmail (.claim _ _ _) | resendCode (.store _ _ _ _ _) | requestReset (.store _ _ _ _ _)
  | resetPassword (.claim _ _ _ _) => 1
  | _ => 0

/-- The response to a call without the password or the code. -/
def denial : Call → Option HttpResponse
  | login _ => Call.response (login (.done (.error .invalidCredentials)))
  | verifyEmail _ => Call.response (verifyEmail (.done (.error .invalidOrExpired)))
  | resendCode _ => Call.response (resendCode (.done (.ok ())))
  | requestReset _ => Call.response (requestReset (.done (.ok ())))
  | resetPassword _ => Call.response (resetPassword (.done (.error .invalidOrExpired)))
  | _ => none

/-- Every way such a call can return maps to the one response. -/
theorem response_of_failing {cfg : Settings} {users : UserId → Versioned CallId UserModel}
    {call : Call} (h : call.Failing cfg users) (hf : call.finished = true) :
    call.response = call.denial := by
  cases call with
  | login q =>
    cases q with
    | done r =>
      cases h
      rfl
    | _ => exact absurd hf Bool.false_ne_true
  | verifyEmail q | resendCode q | requestReset q | resetPassword q =>
    cases q with
    | done r => rcases h with rfl | rfl <;> rfl
    | _ => exact absurd hf Bool.false_ne_true
  | _ => exact h.elim

theorem denial_some {cfg : Settings} {users : UserId → Versioned CallId UserModel} {call : Call}
    (h : call.Failing cfg users) : ∃ response, call.denial = some response := by
  cases call with
  | login | verifyEmail | resendCode | requestReset | resetPassword => exact ⟨_, rfl⟩
  | _ => exact h.elim

/-- The call of a request without the password or the code is failing from the start. -/
theorem failing_of_request {cfg : Settings} {v : Validator} {w : World} {r : AuthRequest}
    {call : Call} (hr : r.call cfg v = .ok call) (hwrong : r.Wrong cfg w) :
    call.initial = true ∧ call.Failing cfg w.db.users ∧ call.toGo ≤ 2 := by
  cases r with
  | login email password remember =>
    simp only [AuthRequest.call] at hr
    split at hr <;> cases hr
    exact ⟨rfl, hwrong, Nat.le_succ 1⟩
  | verifyEmail email code =>
    simp only [AuthRequest.call] at hr
    split at hr
    · cases hr
    · split at hr <;> cases hr
      exact ⟨rfl, hwrong, Nat.le_refl 2⟩
  | resendCode email | forgotPassword email =>
    simp only [AuthRequest.call] at hr
    split at hr <;> cases hr
    exact ⟨rfl, trivial, Nat.le_refl 2⟩
  | resetPassword email code newPassword =>
    simp only [AuthRequest.call] at hr
    split at hr
    · cases hr
    · split at hr
      · cases hr
      · split at hr <;> cases hr
        exact ⟨rfl, hwrong, Nat.le_refl 2⟩

end Call

namespace World

/-- The call is failing, and the table is in order. -/
structure Fails (cfg : Settings) (w : World) (call : Call) : Prop where
  orderly : Orderly w.db.users
  failing : call.Failing cfg w.db.users

variable {cfg : Settings} {out : Outside} {w w' : World} {c : CallId} {before call : Call}
  {fuel : Nat} {r : AuthRequest}

theorem Fails.expire (h : w.Fails cfg call) (keys : List CacheKey) :
    (w.expire keys).Fails cfg call where
  orderly := by
    rw [expire_users]
    exact h.orderly
  failing := by
    rw [expire_users]
    exact h.failing

section
variable (h : w.Fails cfg before) (running : w.calls[c]? = some before)
include h running

omit h in
/-- One statement on the way to the denial. -/
theorem fails_go {s : Stmt} {input : Input} {k : Except DbErr s.Reply → Call}
    {reply : Except DbErr s.Reply} {db' : Db}
    (issues : before.next cfg (input.env w.ticks) = some ⟨s, k⟩)
    (ran : w.db.exec c input.fails s = some (db', reply)) (horderly : Orderly db'.users)
    (hfailing : (k reply).Failing cfg db'.users)
    (hleft : (k reply).toGo < before.toGo) (hdenial : (k reply).denial = before.denial) :
    ∃ w' call, w.step cfg (.exec c input) = some w' ∧ w'.calls = w.calls.set c call ∧
      w'.Fails cfg call ∧ call.toGo < before.toGo ∧ call.denial = before.denial :=
  ⟨_, k reply, step_exec running issues ran, rfl, ⟨horderly, hfailing⟩, hleft, hdenial⟩

/-- The lookup by address finds no account, or one of that address. -/
theorem Fails.goFind {p : UserModel → Bool} {input : Input}
    {k : Except DbErr (Option UserModel) → Call}
    (issues : before.next cfg (input.env w.ticks) = some ⟨.selectUser p, k⟩)
    (hf : input.fails = false)
    (hk : ∀ found, (∀ m, found = some m → (w.db.users m.id).committed = some m ∧ p m = true) →
      (k (.ok found)).Failing cfg w.db.users ∧ (k (.ok found)).toGo < before.toGo ∧
        (k (.ok found)).denial = before.denial) :
    ∃ w' call, w.step cfg (.exec c input) = some w' ∧ w'.calls = w.calls.set c call ∧
      w'.Fails cfg call ∧ call.toGo < before.toGo ∧ call.denial = before.denial := by
  have ran : w.db.exec c input.fails (.selectUser p) = some (w.db, .ok (w.db.findUser c p)) := by
    rw [hf]
    rfl
  obtain ⟨hfailing, hleft, hdenial⟩ := hk _ fun m hm => h.orderly.found hm
  exact fails_go running issues ran h.orderly hfailing hleft hdenial

/-- The UPDATE that stores a code, or takes an attempt, comes back. -/
theorem Fails.goUpdate {u : UserId} {p : UserModel → Bool} {set : UserModel → UserModel}
    {input : Input} {k : Except DbErr (Option UserModel) → Call}
    (issues : before.next cfg (input.env w.ticks) = some ⟨.updateUser .auto u p set, k⟩)
    (hf : input.fails = false) (hid : ∀ m, (set m).id = m.id)
    (hemail : ∀ m, (set m).email = m.email) (hopenid : ∀ m, (set m).wxOpenid = m.wxOpenid)
    (hrange : ∀ m, p m = true → m.inRange = true → (set m).inRange = true)
    (hk : ∀ found users, (k (.ok found)).Failing cfg users ∧
      (k (.ok found)).toGo < before.toGo ∧ (k (.ok found)).denial = before.denial) :
    ∃ w' call, w.step cfg (.exec c input) = some w' ∧ w'.calls = w.calls.set c call ∧
      w'.Fails cfg call ∧ call.toGo < before.toGo ∧ call.denial = before.denial := by
  obtain ⟨db', found, ran, horderly⟩ :=
    h.orderly.update (c := c) (u := u) hid hemail hopenid hrange
  obtain ⟨hfailing, hleft, hdenial⟩ := hk found db'.users
  exact fails_go running issues (by rw [hf]; exact ran) horderly hfailing hleft hdenial

end

theorem inRange_store (kind : CodeKind) {m : UserModel} {h : Option Argon2}
    {expiresAt sentAt : Option Time} (hr : m.inRange = true) :
    (m.setCode kind ⟨h, expiresAt, sentAt, 0⟩).inRange = true := by
  cases kind <;> simp_all [UserModel.inRange, UserModel.setCode]

theorem inRange_attempt (kind : CodeKind) {m : UserModel}
    (hp : decide ((m.code kind).failedAttempts < MAX_FAILED_ATTEMPTS) = true)
    (hr : m.inRange = true) :
    (m.setCode kind { m.code kind with
      failedAttempts := (m.code kind).failedAttempts + 1 }).inRange = true := by
  have hlt : (m.code kind).failedAttempts + 1 ≤ 2147483647 := by
    have := of_decide_eq_true hp
    simp only [MAX_FAILED_ATTEMPTS] at this
    omega
  cases kind <;> simp_all [UserModel.inRange, UserModel.setCode, UserModel.code]

theorem usableHash_stored {kind : CodeKind} {now : Time} {m : UserModel} {h : Argon2}
    (hu : usableHash kind now m = some h) : (m.code kind).hash = some h := by
  unfold usableHash at hu
  split at hu
  · rename_i hh _
    split at hu <;> cases hu
    exact hh
  · cases hu

theorem Fails.step (hmail : ∀ t, (out.input t).emailConfigured = true)
    (hsend : ∀ t, (out.input t).sendOk = true) (running : w.calls[c]? = some before)
    (hf : before.finished = false) (h : w.Fails cfg before) : ∃ w' call,
      w.step cfg (.exec c (w.inputFor out before)) = some w' ∧ w'.calls = w.calls.set c call ∧
      w'.Fails cfg call ∧ call.toGo < before.toGo ∧ call.denial = before.denial := by
  have hdb {call : Call} (hr : call.onRedis = false) : (w.inputFor out call).fails = false := by
    simp [inputFor, hr]
  have hconfigured {call : Call} : ((w.inputFor out call).env w.ticks).emailConfigured = true :=
    hmail w.ticks
  have hsent {call : Call} : ((w.inputFor out call).env w.ticks).sendOk = true := hsend w.ticks
  have hfailing := h.failing
  cases before with
  | login q =>
    cases q with
    | find request =>
      refine h.goFind running rfl (hdb rfl) ?_
      intro found hfound
      cases found with
      | none => exact ⟨rfl, Nat.zero_lt_one, rfl⟩
      | some m =>
        obtain ⟨hm, hp⟩ := hfound m rfl
        have hwrong := hfailing m.id m _ hm (by simpa using hp) rfl
        simp only [hwrong, if_true]
        exact ⟨rfl, Nat.zero_lt_one, rfl⟩
    | done => cases hf
    | _ => exact hfailing.elim
  | verifyEmail q =>
    cases q with
    | find email code =>
      refine h.goFind running rfl (hdb rfl) ?_
      intro found hfound
      cases found with
      | none => exact ⟨Or.inl rfl, Nat.zero_lt_two, rfl⟩
      | some m =>
        obtain ⟨hm, hp⟩ := hfound m rfl
        dsimp only
        split
        · exact ⟨Or.inl rfl, Nat.zero_lt_two, rfl⟩
        · split
          · exact ⟨Or.inl rfl, Nat.zero_lt_two, rfl⟩
          · rename_i hu
            exact ⟨hfailing m.id m _ hm (by simpa using hp) (usableHash_stored hu),
              Nat.one_lt_two, rfl⟩
    | claim user codeHash code =>
      refine h.goUpdate running rfl (hdb rfl) (fun _ => rfl) (fun _ => rfl) (fun _ => rfl)
        (fun m => inRange_attempt .verification) ?_
      intro found users
      cases found with
      | none => exact ⟨Or.inr rfl, Nat.zero_lt_one, rfl⟩
      | some m =>
        simp only [show Argon2.verify code codeHash = false from hfailing, Bool.false_eq_true,
          if_false]
        exact ⟨Or.inl rfl, Nat.zero_lt_one, rfl⟩
    | done => cases hf
    | _ => exact hfailing.elim
  | resendCode q =>
    cases q with
    | find email =>
      refine h.goFind running rfl (hdb rfl) ?_
      intro found _
      cases found with
      | none => exact ⟨Or.inl rfl, Nat.zero_lt_two, rfl⟩
      | some m =>
        cases hv : m.emailVerified with
        | true =>
          simp only [hv, if_true]
          exact ⟨Or.inl rfl, Nat.zero_lt_two, rfl⟩
        | false =>
          simp only [hv, hconfigured, Bool.false_eq_true, if_false, if_true]
          exact ⟨trivial, Nat.one_lt_two, rfl⟩
    | store user email code codeHash now =>
      refine h.goUpdate running rfl (hdb rfl) (fun _ => rfl) (fun _ => rfl) (fun _ => rfl)
        (fun m _ => inRange_store .verification) ?_
      intro found users
      cases found with
      | none => exact ⟨Or.inr rfl, Nat.zero_lt_one, rfl⟩
      | some m =>
        simp only [hsent, if_true]
        exact ⟨Or.inl rfl, Nat.zero_lt_one, rfl⟩
    | done => cases hf
  | requestReset q =>
    cases q with
    | find email =>
      refine h.goFind running rfl (hdb rfl) ?_
      intro found _
      cases found with
      | none => exact ⟨Or.inl rfl, Nat.zero_lt_two, rfl⟩
      | some m =>
        simp only [hconfigured, if_true]
        exact ⟨trivial, Nat.one_lt_two, rfl⟩
    | store user email code codeHash now =>
      refine h.goUpdate running rfl (hdb rfl) (fun _ => rfl) (fun _ => rfl) (fun _ => rfl)
        (fun m _ => inRange_store .passwordReset) ?_
      intro found users
      cases found with
      | none => exact ⟨Or.inr rfl, Nat.zero_lt_one, rfl⟩
      | some m =>
        simp only [hsent, if_true]
        exact ⟨Or.inl rfl, Nat.zero_lt_one, rfl⟩
    | done => cases hf
  | resetPassword q =>
    cases q with
    | find email code newPassword =>
      refine h.goFind running rfl (hdb rfl) ?_
      intro found hfound
      cases found with
      | none => exact ⟨Or.inl rfl, Nat.zero_lt_two, rfl⟩
      | some m =>
        obtain ⟨hm, hp⟩ := hfound m rfl
        dsimp only
        split
        · exact ⟨Or.inl rfl, Nat.zero_lt_two, rfl⟩
        · rename_i hu
          exact ⟨hfailing m.id m _ hm (by simpa using hp) (usableHash_stored hu),
            Nat.one_lt_two, rfl⟩
    | claim user codeHash code newPassword =>
      refine h.goUpdate running rfl (hdb rfl) (fun _ => rfl) (fun _ => rfl) (fun _ => rfl)
        (fun m => inRange_attempt .passwordReset) ?_
      intro found users
      cases found with
      | none => exact ⟨Or.inr rfl, Nat.zero_lt_one, rfl⟩
      | some m =>
        simp only [show Argon2.verify code codeHash = false from hfailing, Bool.false_eq_true,
          if_false]
        exact ⟨Or.inl rfl, Nat.zero_lt_one, rfl⟩
    | done => cases hf
    | _ => exact hfailing.elim
  | _ => exact hfailing.elim

/-- No request of the sequence carries the password or the code of an account by the time it
is made. -/
def NeverRight (cfg : Settings) (v : Validator) (out : Outside) (fuel : Nat) :
    List AuthRequest → World → Prop
  | [], _ => True
  | r :: rest, w => r.Wrong cfg w ∧ ∀ w' response,
      w.request cfg v out fuel r = some (w', response) → NeverRight cfg v out fuel rest w'

/-- The response to a request without the password or the code. -/
def denied (cfg : Settings) (v : Validator) (r : AuthRequest) : Option HttpResponse :=
  match r.call cfg v with
  | .error e => some (.ofError e)
  | .ok call => call.denial

/-- A request without the password or the code gets the response that depends on the request
alone, and leaves the table in order. -/
theorem denied_request (hmail : ∀ t, (out.input t).emailConfigured = true)
    (hsend : ∀ t, (out.input t).sendOk = true) (hfuel : 2 ≤ fuel) (horderly : Orderly w.db.users)
    (hwrong : r.Wrong cfg w) {v : Validator} : ∃ w' response,
      w.request cfg v out fuel r = some (w', response) ∧ Orderly w'.db.users ∧
      denied cfg v r = some response := by
  cases hr : r.call cfg v with
  | error e =>
    exact ⟨w, .ofError e, by simp [request, hr], horderly, by simp [denied, hr]⟩
  | ok call =>
    obtain ⟨hinit, hfailing, hleft⟩ := Call.failing_of_request hr hwrong
    have running : (w.join call).calls[w.calls.length]? = some call := by simp [join]
    obtain ⟨w', returned, hfin, hcalls, hdone, hfails, hdenial⟩ :=
      finish_of_steps (R := fun w call => w.Fails cfg call) (fun w call keys h => h.expire keys)
        (fun w before running hf h => h.step hmail hsend running hf) running
        ⟨horderly, hfailing⟩ (Nat.le_trans hleft hfuel)
    obtain ⟨response, hresponse⟩ := Call.denial_some hfailing
    have hcall : w'.calls[w.calls.length]? = some returned := by
      rw [hcalls]
      exact set_running running
    have hanswer : returned.response = some response := by
      rw [Call.response_of_failing hfails.failing hdone, hdenial, hresponse]
    exact ⟨w', response, by simp [request, hr, step, hinit, hfin, hcall, hanswer],
      hfails.orderly, by simp [denied, hr, hresponse]⟩

theorem denied_requests (hmail : ∀ t, (out.input t).emailConfigured = true)
    (hsend : ∀ t, (out.input t).sendOk = true) (hfuel : 2 ≤ fuel) {v : Validator}
    {rs : List AuthRequest} (horderly : Orderly w.db.users)
    (hwrong : NeverRight cfg v out fuel rs w) : ∃ w' responses,
      requests cfg v out fuel rs w = some (w', responses) ∧
      rs.map (denied cfg v) = responses.map some := by
  induction rs generalizing w with
  | nil => exact ⟨w, [], rfl, rfl⟩
  | cons r rest ih =>
    obtain ⟨w₁, response, hr, ho, hd⟩ := denied_request hmail hsend hfuel horderly hwrong.1
    obtain ⟨w₂, responses, hrs, hds⟩ := ih ho (hwrong.2 w₁ response hr)
    exact ⟨w₂, response :: responses, by simp [requests, hr, hrs], by simp [hd, hds]⟩

/-- The responses are the same from any two worlds, whatever accounts they have. -/
theorem accounts_alike {w₁ w₂ : World} {out₁ out₂ : Outside} {v : Validator}
    {rs : List AuthRequest} (horderly₁ : Orderly w₁.db.users) (horderly₂ : Orderly w₂.db.users)
    (hmail₁ : ∀ t, (out₁.input t).emailConfigured = true ∧ (out₁.input t).sendOk = true)
    (hmail₂ : ∀ t, (out₂.input t).emailConfigured = true ∧ (out₂.input t).sendOk = true)
    (hfuel : 2 ≤ fuel) (hwrong₁ : NeverRight cfg v out₁ fuel rs w₁)
    (hwrong₂ : NeverRight cfg v out₂ fuel rs w₂) : ∃ w₁' w₂' responses,
      requests cfg v out₁ fuel rs w₁ = some (w₁', responses) ∧
      requests cfg v out₂ fuel rs w₂ = some (w₂', responses) := by
  obtain ⟨w₁', responses₁, hr₁, hd₁⟩ :=
    denied_requests (fun t => (hmail₁ t).1) (fun t => (hmail₁ t).2) hfuel horderly₁ hwrong₁
  obtain ⟨w₂', responses₂, hr₂, hd₂⟩ :=
    denied_requests (fun t => (hmail₂ t).1) (fun t => (hmail₂ t).2) hfuel horderly₂ hwrong₂
  have hsame : responses₁ = responses₂ :=
    (List.map_injective_iff.mpr (Option.some_injective _)) (hd₁.symm.trans hd₂)
  exact ⟨w₁', w₂', responses₁, hr₁, hsame ▸ hr₂⟩

/-! ## An account on its last attempt -/

/-- An unverified account with one attempt left. -/
def lastAttempt : World :=
  .ofRows [{ UserModel.registered 1 "ada@example.com" "Passw0rd!" "user" with
    emailVerified := false
    verification := ⟨some (.hash 0 "222222"), some (minutes 10), some 0, 4⟩ }] [] 1

def nobody : World := .ofRows [] [] 1

theorem orderly_nobody : Orderly nobody.db.users where
  free _ := rfl
  keyed u m hm := by cases hm
  range u m hm := by cases hm
  distinct u u' m m' _ hm := by cases hm

theorem row_lastAttempt {u : UserId} {m : UserModel}
    (hm : (lastAttempt.db.users u).committed = some m) : u = 1 ∧ m.inRange = true ∧ m.id = 1 ∧
      m.verification.hash = some (.hash 0 "222222") := by
  have hmem := List.mem_of_find?_eq_some hm
  have hid := List.find?_some hm
  rw [List.mem_singleton.mp hmem] at hid ⊢
  exact ⟨(beq_iff_eq.mp hid).symm, by decide, rfl, rfl⟩

theorem orderly_lastAttempt : Orderly lastAttempt.db.users where
  free _ := rfl
  keyed u m hm := by
    obtain ⟨rfl, _, hid, _⟩ := row_lastAttempt hm
    exact hid
  range u m hm := (row_lastAttempt hm).2.1
  distinct u u' m m' hne hm hm' :=
    absurd ((row_lastAttempt hm').1.trans (row_lastAttempt hm).1.symm) hne

theorem accounts_alike_last_attempt :
    let rs : List AuthRequest := [.verifyEmail "ada@example.com" "111111",
      .resendCode "ada@example.com", .resendCode "ada@example.com",
      .forgotPassword "ada@example.com"]
    ∃ w₁' w₂' responses,
      requests .plain ⟨fun _ => true, fun _ => ""⟩ ⟨fun _ => {}, fun _ => []⟩ 2 rs nobody =
        some (w₁', responses) ∧
      requests .plain ⟨fun _ => true, fun _ => ""⟩ ⟨fun _ => {}, fun _ => []⟩ 2 rs lastAttempt =
        some (w₂', responses) := by
  refine accounts_alike orderly_nobody orderly_lastAttempt (fun _ => ⟨rfl, rfl⟩)
    (fun _ => ⟨rfl, rfl⟩) (Nat.le_refl 2) ⟨?_, ?_⟩ ⟨?_, ?_⟩
  · intro u m h hm
    cases hm
  · intro _ _ _
    exact ⟨trivial, fun _ _ _ => ⟨trivial, fun _ _ _ => ⟨trivial, fun _ _ _ => trivial⟩⟩⟩
  · intro u m h hm _ hh
    cases (row_lastAttempt hm).2.2.2.symm.trans hh
    decide
  · intro _ _ _
    exact ⟨trivial, fun _ _ _ => ⟨trivial, fun _ _ _ => ⟨trivial, fun _ _ _ => trivial⟩⟩⟩

end World

end Webshelf
