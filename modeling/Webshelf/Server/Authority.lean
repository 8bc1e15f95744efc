import Webshelf.Handlers.Api
import Webshelf.Server.Access
import Webshelf.Users.Columns

/-!
# Who changes an account

The handlers of the API make their calls for the requests that have been passed
on to them. `create_user`, `update_user`, `change_password`, the revocation of
all sessions, `delete_user` and the balance functions are called by no one else,
but for registrations; nothing binds an openid. What such a call may change it
still knows of its start, so a change goes back to the request that was entitled
to it.
-/

namespace Webshelf

open Adapters (AuthUser UnifiedRequest WireClaims parseI64 seesStripped)
open Runs (Watched)

namespace App

/-- A call of a handler: for a request to the API, or for a registration. -/
structure Made where
  visit : Option Nat
  call : CallId
  start : Call

structure State where
  api : Api.State
  made : List Made := []

inductive Label where
  | api (l : Api.Label)
  /-- The handler of a request that has been passed on. -/
  | handle (n : Nat)
  | register (req : UnifiedRequest)

end App

/-- The parameter `id` of the request, as the handlers parse it. -/
def Api.Visit.target (crates : ApiCrates) (visit : Api.Visit) : Option UserId :=
  (visit.route.idParam crates (seesStripped visit.adapter) visit.request).bind parseI64

/-- The call of the handler of a request that has been passed on with this user. -/
def Api.Visit.call (crates : ApiCrates) (cfg : Settings) (v : Validator) (visit : Api.Visit)
    (user : Option AuthUser) : Option Call :=
  match visit.adapter.handOver visit.request none, visit.route.handler with
  | .ok req, some handler =>
    match handler.call crates cfg v user
      (visit.route.idParam crates (seesStripped visit.adapter) visit.request) req with
    | .ok call => call
    | .error _ => none
  | _, _ => none

/-- A call of the services that is left to the handlers. -/
def Api.Label.byHandler : Api.Label → Bool
  | .server (.invoke call) => call.byHandler
  | _ => false

namespace App

section
variable (crates : ApiCrates) (cfg : Settings) (v : Validator) (router : Adapters.ApiRouter)
  (parseCookie : List Char → Option (String × String))
  (validate : String → Except String WireClaims)

def State.make (s : State) (visit : Option Nat) (call : Call) : Option State :=
  (s.api.world.step cfg (.invoke call)).map fun world =>
    ⟨{ s.api with world }, s.made ++ [⟨visit, s.api.world.calls.length, call⟩]⟩

def step (s : State) : Label → Option State
  | .api l =>
    if l.byHandler then none
    else (Api.step cfg router parseCookie validate s.api l).map fun api => { s with api }
  | .handle n =>
    if s.made.any (·.visit == some n) then none
    else do
      let visit ← s.api.visits[n]?
      match visit.phase with
      | .over (.passed user) => (visit.call crates cfg v user).bind (s.make cfg (some n))
      | _ => none
  | .register req =>
    match registerHandler crates cfg v req with
    | .ok call => s.make cfg none call
    | .error _ => none

end

/-! ## What a step does -/

variable {crates : ApiCrates} {cfg : Settings} {v : Validator} {router : Adapters.ApiRouter}
  {parseCookie : List Char → Option (String × String)}
  {validate : String → Except String WireClaims} {s t : State} {l : Label} {u : UserId}
  {f f' : Watched State} {w : World}

/-- Where the start of a call comes from. -/
def Source (crates : ApiCrates) (cfg : Settings) (v : Validator) (s : State) (h : Made) : Prop :=
  match h.visit with
  | none => ∃ req, registerHandler crates cfg v req = .ok h.start
  | some n => ∃ visit user, s.api.visits[n]? = some visit ∧
    visit.phase = .over (.passed user) ∧ visit.call crates cfg v user = some h.start

/-- What a step does: it is one of the API beside the handlers, or a handler makes its call. -/
inductive Does (crates : ApiCrates) (cfg : Settings) (v : Validator)
    (router : Adapters.ApiRouter) (parseCookie : List Char → Option (String × String))
    (validate : String → Except String WireClaims) (s : State) : State → Prop
  | api {l : Api.Label} {api : Api.State} (other : l.byHandler = false)
      (ran : Api.step cfg router parseCookie validate s.api l = some api) :
      Does crates cfg v router parseCookie validate s { s with api }
  | make {visit : Option Nat} {call : Call}
      (source : Source crates cfg v s ⟨visit, s.api.world.calls.length, call⟩)
      (start : call.initial = true) :
      Does crates cfg v router parseCookie validate s
        ⟨{ s.api with world := s.api.world.join call },
          s.made ++ [⟨visit, s.api.world.calls.length, call⟩]⟩

theorem make_some {visit : Option Nat} {call : Call} (h : s.make cfg visit call = some t) :
    call.initial = true ∧ t = ⟨{ s.api with world := s.api.world.join call },
      s.made ++ [⟨visit, s.api.world.calls.length, call⟩]⟩ := by
  obtain ⟨world, hworld, rfl⟩ := Option.map_eq_some_iff.mp h
  cases World.step_transition hworld with
  | invoke start => exact ⟨start, rfl⟩

theorem step_does (h : step crates cfg v router parseCookie validate s l = some t) :
    Does crates cfg v router parseCookie validate s t := by
  cases l with
  | api l =>
    simp only [step] at h
    split at h
    · cases h
    · rename_i hother
      obtain ⟨api, hapi, rfl⟩ := Option.map_eq_some_iff.mp h
      exact .api (by simpa using hother) hapi
  | handle n =>
    simp only [step] at h
    split at h
    · cases h
    · obtain ⟨visit, hvisit, h⟩ := Option.bind_eq_some_iff.mp h
      split at h
      · rename_i user hphase
        obtain ⟨call, hcall, h⟩ := Option.bind_eq_some_iff.mp h
        obtain ⟨start, rfl⟩ := make_some h
        exact .make ⟨visit, user, hvisit, hphase, hcall⟩ start
      · cases h
  | register req =>
    simp only [step] at h
    split at h
    · rename_i call hcall
      obtain ⟨start, rfl⟩ := make_some h
      exact .make ⟨req, hcall⟩ start
    · cases h

/-- For the API a handler is part of the server. -/
theorem api_step (h : step crates cfg v router parseCookie validate s l = some t) :
    ∃ l', Api.step cfg router parseCookie validate s.api l' = some t.api := by
  cases step_does h with
  | api other ran => exact ⟨_, ran⟩
  | @make visit call source start =>
    refine ⟨.server (.invoke call), ?_⟩
    simp [Api.step, World.step, start]

/-- A step of the API is one of the services, or leaves them alone. -/
theorem world_of_api {a b : Api.State} {l : Api.Label}
    (h : Api.step cfg router parseCookie validate a l = some b) :
    b.world = a.world ∨ ∃ lw, World.Transition cfg a.world lw b.world ∧
      (∀ call, lw = .invoke call → call.byHandler = true → l.byHandler = true) := by
  cases l with
  | arrive adapter stateFound route request =>
    simp only [Api.step] at h
    split at h
    · split at h
      · cases h
        exact .inl rfl
      · obtain ⟨w, hw, rfl⟩ := Option.map_eq_some_iff.mp h
        refine .inr ⟨_, World.step_transition hw, ?_⟩
        rintro call ⟨⟩ hby
        cases hby
    · cases h
  | server lw =>
    obtain ⟨w, hw, rfl⟩ := Option.map_eq_some_iff.mp h
    refine .inr ⟨lw, World.step_transition hw, ?_⟩
    rintro call rfl hby
    exact hby
  | resume n =>
    obtain ⟨visit, -, h⟩ := Option.bind_eq_some_iff.mp h
    split at h
    · cases h
    · split at h
      · cases h
        exact .inl rfl
      · cases h

/-- A request that has been passed on stays so. -/
theorem visits_of_api {a b : Api.State} {l : Api.Label} {n : Nat} {visit : Api.Visit}
    {result : Adapters.Authenticated} (h : Api.step cfg router parseCookie validate a l = some b)
    (hget : a.visits[n]? = some visit) (hover : visit.phase = .over result) :
    b.visits[n]? = some visit := by
  cases l with
  | arrive adapter stateFound route request =>
    obtain ⟨hlt, -⟩ := List.getElem?_eq_some_iff.mp hget
    simp only [Api.step] at h
    split at h
    · split at h
      · cases h
        exact (List.getElem?_append_left hlt).trans hget
      · obtain ⟨w, hw, rfl⟩ := Option.map_eq_some_iff.mp h
        exact (List.getElem?_append_left hlt).trans hget
    · cases h
  | server lw =>
    obtain ⟨w, hw, rfl⟩ := Option.map_eq_some_iff.mp h
    exact hget
  | resume k =>
    obtain ⟨visit', hvisit, h⟩ := Option.bind_eq_some_iff.mp h
    split at h
    · cases h
    · rename_i hphase
      split at h
      · cases h
        have hne : k ≠ n := by
          rintro rfl
          cases hvisit.symm.trans hget
          rw [hover] at hphase
          cases hphase
        exact (List.getElem?_set_ne hne).trans hget
      · cases h

/-! ## What holds of the calls -/

/-- Every call that is left to the handlers goes back to one of them. -/
structure Kept (crates : ApiCrates) (cfg : Settings) (v : Validator) (s : State) : Prop where
  made : ∀ (c : CallId) call, s.api.world.calls[c]? = some call → call.byHandler = true →
    ∃ h ∈ s.made, h.start.Stems call ∧ Source crates cfg v s h

theorem Source.step {h : Made} (hs : Source crates cfg v s h)
    (hstep : Does crates cfg v router parseCookie validate s t) : Source crates cfg v t h := by
  unfold Source at hs ⊢
  split at hs
  · exact hs
  · obtain ⟨visit, user, hget, hphase, hcall⟩ := hs
    refine ⟨visit, user, ?_, hphase, hcall⟩
    cases hstep with
    | api other ran => exact visits_of_api ran hget hphase
    | make => exact hget

theorem Kept.step (hk : Kept crates cfg v s)
    (hstep : Does crates cfg v router parseCookie validate s t) : Kept crates cfg v t := by
  have hold : ∀ {c : CallId} {call : Call}, s.api.world.calls[c]? = some call →
      call.byHandler = true → ∃ h ∈ s.made, h.start.Stems call ∧ Source crates cfg v t h := by
    intro c call hc hby
    obtain ⟨h, hmem, hstems, hsource⟩ := hk.made c call hc hby
    exact ⟨h, hmem, hstems, hsource.step hstep⟩
  constructor
  intro c call hc hby
  cases hstep with
  | @api l api other ran =>
    rcases world_of_api ran with hsame | ⟨lw, hworld, hl⟩
    · rw [hsame] at hc
      exact hold hc hby
    · obtain ⟨world, visits⟩ := api
      dsimp only at hc hworld
      cases hworld with
      | expire => exact hold hc hby
      | invoke start =>
        rcases World.join_calls hc with hc | rfl
        · exact hold hc hby
        · rw [hl _ rfl hby] at other
          cases other
      | @exec c' input before stmt k db' reply running issues ran =>
        by_cases heq : c = c'
        · subst heq
          rw [World.after_self running] at hc
          cases hc
          rw [Call.byHandler_next issues] at hby
          obtain ⟨h, hmem, hstems, hsource⟩ := hold running hby
          exact ⟨h, hmem, Call.stems_next hstems issues, hsource⟩
        · rw [World.after_other heq] at hc
          exact hold hc hby
  | @make visit start source initial =>
    rcases World.join_calls hc with hc | rfl
    · obtain ⟨h, hmem, hstems, hsource⟩ := hold hc hby
      exact ⟨h, List.mem_append_left _ hmem, hstems, hsource⟩
    · exact ⟨_, List.mem_append_right _ List.mem_cons_self, Call.stems_self initial hby, source⟩

theorem api_reached
    (h : Runs.Reaches (Watched.next (step crates cfg v router parseCookie validate)) Runs.Free
      ⟨⟨⟨w, []⟩, []⟩, []⟩ f) :
    Runs.Reaches (Watched.next (Api.step cfg router parseCookie validate)) Runs.Free
      ⟨⟨w, []⟩, []⟩ (f.map State.api) :=
  Watched.reaches_map State.api (fun _ _ _ hstep => api_step hstep) h

theorem kept_reached (h0 : w.Initial)
    (h : Runs.Reaches (Watched.next (step crates cfg v router parseCookie validate)) Runs.Free
      ⟨⟨⟨w, []⟩, []⟩, []⟩ f) : Kept crates cfg v f.now := by
  refine h.invariant (I := fun f => Kept crates cfg v f.now) ?_ ?_
  · constructor
    intro c call hc
    dsimp only at hc
    rw [h0.calls] at hc
    cases hc
  · intro f l f' hk _ hstep
    obtain ⟨t, ht, rfl⟩ := Watched.next_some hstep
    exact hk.step (step_does ht)

/-! ## Who is entitled to a change -/

/-- A request has been passed on to this handler, as one of this user, who has the id. -/
structure Asked (parseCookie : List Char → Option (String × String))
    (validate : String → Except String WireClaims) (f : Watched State) (handler : ApiHandler)
    (visit : Api.Visit) (user : AuthUser) (userId : UserId) : Prop where
  there : visit ∈ f.now.api.visits
  handler : visit.route.handler = some handler
  passed : visit.phase = .over (.passed (some user))
  self : parseI64 user.userId = some userId
  vetted : ∃ claims,
    Api.Vetted parseCookie validate (Api.worlds (f.map State.api)) visit user userId claims

/-- The request is one of an admin or the system for the account `u`. -/
structure Orders (crates : ApiCrates) (parseCookie : List Char → Option (String × String))
    (validate : String → Except String WireClaims) (f : Watched State) (handler : ApiHandler)
    (user : AuthUser) (u : UserId) : Prop where
  asked : ∃ visit userId, Asked parseCookie validate f handler visit user userId ∧
    visit.target crates = some u
  manager : user.role = "admin" ∨ user.role = "system"

/-- Why a column of the account `u` may change. -/
inductive Entitled (crates : ApiCrates) (parseCookie : List Char → Option (String × String))
    (validate : String → Except String WireClaims) (f : Watched State) (u : UserId) :
    Column → Prop
  | edits {col : Column} {user : AuthUser} (profile : col = .email ∨ col = .name)
      (orders : Orders crates parseCookie validate f .updateUser user u) :
      Entitled crates parseCookie validate f u col
  | promotes {col : Column} {user : AuthUser} (rank : col = .role ∨ col = .tokenVersion)
      (orders : Orders crates parseCookie validate f .updateUser user u)
      (system : user.role = "system") : Entitled crates parseCookie validate f u col
  | pays {handler : ApiHandler} {user : AuthUser}
      (pays : handler = .setBalance ∨ handler = .adjustBalance)
      (orders : Orders crates parseCookie validate f handler user u) :
      Entitled crates parseCookie validate f u .balance
  | changesPassword {col : Column} {visit : Api.Visit} {user : AuthUser}
      (secret : col = .passwordHash ∨ col = .tokenVersion)
      (asked : Asked parseCookie validate f .changeMyPassword visit user u) :
      Entitled crates parseCookie validate f u col
  | leaves {visit : Api.Visit} {user : AuthUser}
      (asked : Asked parseCookie validate f .logoutAll visit user u) :
      Entitled crates parseCookie validate f u .tokenVersion
  /-- A reset that has taken the place of its code. -/
  | resets {col : Column} {c : CallId} {user updated : UserModel} {h : Argon2}
      (secret : col = .passwordHash ∨ col = .tokenVersion)
      (call : f.now.api.world.calls[c]? = some (.resetPassword (.commit user h updated)))
      (account : user.id = u) : Entitled crates parseCookie validate f u col

/-! ### From the call back to its request -/

section
variable {handler : ApiHandler} {visit : Api.Visit} {user : AuthUser} {userId : UserId}
  {before : Call} {c : CallId} {col : Column}

theorem asked_of_passed (hsound : Api.Sound parseCookie validate (f.map State.api))
    (hmem : visit ∈ f.now.api.visits) (hhandler : visit.route.handler = some handler)
    (hne : handler ≠ .healthCheck) (hpassed : visit.phase = .over (.passed (some user))) :
    ∃ userId, Asked parseCookie validate f handler visit user userId := by
  have hgood := hsound.good visit hmem
  unfold Api.Good at hgood
  rw [hpassed] at hgood
  rcases hgood with hhealth | ⟨u, userId, claims, hu, hvetted⟩
  · rw [hhealth] at hhandler
    have hcheck : (⟨"GET", [.text "health"], false⟩ : Adapters.ApiRoute).handler =
        some .healthCheck := by decide
    exact absurd (Option.some.inj (hhandler.symm.trans hcheck)) hne
  · cases hu
    refine ⟨userId, hmem, hhandler, hpassed, ?_, claims, hvetted⟩
    obtain ⟨token, -, -, hparse⟩ := hvetted.presents
    rw [hvetted.named]
    exact hparse

theorem orders_of_asked {u : UserId} (h : Asked parseCookie validate f handler visit user userId)
    (hadmin : ∀ entry ∈ apiHandlers, entry.2 = handler → entry.1.admin = true)
    (htarget : visit.target crates = some u) :
    Orders crates parseCookie validate f handler user u := by
  obtain ⟨claims, hvetted⟩ := h.vetted
  exact ⟨⟨visit, userId, h, htarget⟩, hvetted.role (hadmin _ (mem_of_handler h.handler) rfl)⟩

variable (hsound : Api.Sound parseCookie validate (f.map State.api))
  (hkept : Kept crates cfg v f.now)
include hsound hkept

/-- The start of a call that is left to the handlers. -/
theorem started (running : f.now.api.world.calls[c]? = some before)
    (hby : before.byHandler = true) : ∃ start, start.Stems before ∧
      ((∃ input, start = .createUser (.insert input "user")) ∨
        ∃ visit user userId handler, Asked parseCookie validate f handler visit user userId ∧
          handler.Makes user
            (visit.route.idParam crates (seesStripped visit.adapter) visit.request) start) := by
  obtain ⟨h, -, hstems, hsource⟩ := hkept.made c before running hby
  refine ⟨h.start, hstems, ?_⟩
  unfold Source at hsource
  split at hsource
  · obtain ⟨req, hreg⟩ := hsource
    exact .inl (insert_of_register hreg)
  · obtain ⟨visit, user, hget, hphase, hcall⟩ := hsource
    right
    unfold Api.Visit.call at hcall
    split at hcall
    · rename_i req handler _ hhandler
      split at hcall
      · rename_i call hok
        subst hcall
        obtain ⟨u, rfl, hmakes⟩ := ApiHandler.makes_of_call hok
        have hne : handler ≠ .healthCheck := by
          rintro rfl
          cases hmakes
        obtain ⟨userId, hasked⟩ :=
          asked_of_passed hsound (List.mem_of_getElem? hget) hhandler hne hphase
        exact ⟨visit, u, userId, handler, hasked, hmakes⟩
      · cases hcall
    · cases hcall

theorem update_ordered {q : UpdateUser}
    (running : f.now.api.world.calls[c]? = some (.updateUser q)) : ∃ id input user,
      Call.Follows.updateUser id input q ∧
      Orders crates parseCookie validate f .updateUser user id ∧
      (input.role ≠ none → user.role = "system") := by
  obtain ⟨start, ⟨id, input, actorRole, rfl, hfollows⟩, ⟨_, hreg⟩ |
    ⟨visit, user, userId, handler, hasked, hmakes⟩⟩ := started hsound hkept running rfl
  · cases hreg
  · cases hmakes with
    | updateUser target role =>
      refine ⟨id, input, user, hfollows, orders_of_asked hasked (by decide) target, ?_⟩
      intro hrole
      by_contra hother
      exact hrole (role hother)

theorem balance_ordered {q : ModifyBalance}
    (running : f.now.api.world.calls[c]? = some (.modifyBalance q)) : ∃ id handler user,
      Call.Follows.modifyBalance id q ∧ (handler = .setBalance ∨ handler = .adjustBalance) ∧
      Orders crates parseCookie validate f handler user id := by
  obtain ⟨start, ⟨id, op, actorRole, rfl, hfollows⟩, ⟨_, hreg⟩ |
    ⟨visit, user, userId, handler, hasked, hmakes⟩⟩ := started hsound hkept running rfl
  · cases hreg
  · cases hmakes with
    | setBalance target =>
      exact ⟨id, _, user, hfollows, .inl rfl, orders_of_asked hasked (by decide) target⟩
    | adjustBalance target =>
      exact ⟨id, _, user, hfollows, .inr rfl, orders_of_asked hasked (by decide) target⟩

theorem password_asked {q : ChangePassword}
    (running : f.now.api.world.calls[c]? = some (.changePassword q)) : ∃ id visit user,
      Call.Follows.changePassword id q ∧
      Asked parseCookie validate f .changeMyPassword visit user id := by
  obtain ⟨start, ⟨id, _, _, _, rfl, hfollows⟩, ⟨_, hreg⟩ |
    ⟨visit, user, userId, handler, hasked, hmakes⟩⟩ := started hsound hkept running rfl
  · cases hreg
  · cases hmakes with
    | changeMyPassword self =>
      cases hasked.self.symm.trans self
      exact ⟨id, visit, user, hfollows, hasked⟩

theorem logout_asked {q : RevokeAll}
    (running : f.now.api.world.calls[c]? = some (.revokeAll q)) : ∃ id visit user,
      Call.Follows.revokeAll id q ∧ Asked parseCookie validate f .logoutAll visit user id := by
  obtain ⟨start, ⟨id, rfl, hfollows⟩, ⟨_, hreg⟩ |
    ⟨visit, user, userId, handler, hasked, hmakes⟩⟩ := started hsound hkept running rfl
  · cases hreg
  · cases hmakes with
    | logoutAll self =>
      cases hasked.self.symm.trans self
      exact ⟨id, visit, user, hfollows, hasked⟩

theorem delete_ordered {q : DeleteUser}
    (running : f.now.api.world.calls[c]? = some (.deleteUser q)) : ∃ id actorId user,
      Call.Follows.deleteUser id user.role actorId q ∧ parseI64 user.userId = some actorId ∧
      Orders crates parseCookie validate f .deleteUser user id := by
  obtain ⟨start, ⟨id, actorRole, actorId, rfl, hfollows⟩, ⟨_, hreg⟩ |
    ⟨visit, user, userId, handler, hasked, hmakes⟩⟩ := started hsound hkept running rfl
  · cases hreg
  · cases hmakes with
    | deleteUser target self =>
      exact ⟨id, actorId, user, hfollows, self, orders_of_asked hasked (by decide) target⟩

theorem create_asked {input : CreateUserInput} {actorRole : String}
    (running : f.now.api.world.calls[c]? = some (.createUser (.insert input actorRole))) :
    actorRole = "user" ∨ ∃ visit user userId,
      Asked parseCookie validate f .createUser visit user userId ∧ actorRole = user.role := by
  obtain ⟨start, ⟨input', actorRole', rfl, hfollows⟩, ⟨_, hreg⟩ |
    ⟨visit, user, userId, handler, hasked, hmakes⟩⟩ := started hsound hkept running rfl
  · cases hreg
    exact .inl (hfollows _ _ rfl).2
  · cases hmakes with
    | createUser role => exact .inr ⟨visit, user, userId, hasked, (hfollows _ _ rfl).2⟩

theorem not_setOpenid {q : SetOpenid} : f.now.api.world.calls[c]? ≠ some (.setOpenid q) := by
  intro running
  obtain ⟨start, ⟨id, openid, rfl⟩, ⟨_, hreg⟩ |
    ⟨visit, user, userId, handler, hasked, hmakes⟩⟩ := started hsound hkept running rfl
  · cases hreg
  · cases hmakes

theorem entitled_of_alters (running : f.now.api.world.calls[c]? = some before)
    (ha : before.alters col = some u) : Entitled crates parseCookie validate f u col := by
  cases before with
  | updateUser q =>
    obtain ⟨id, input, user, hfollows, horders, hrole⟩ := update_ordered hsound hkept running
    cases q with
    | update =>
      obtain ⟨rfl, rfl⟩ := hfollows
      cases col with
      | email =>
        cases ha
        exact .edits (.inl rfl) horders
      | name =>
        cases ha
        exact .edits (.inr rfl) horders
      | role =>
        simp only [Call.alters] at ha
        split at ha
        · cases ha
        · rename_i hasked
          cases ha
          exact .promotes (.inl rfl) horders (hrole hasked)
      | balance | passwordHash | tokenVersion | wxOpenid => cases ha
    | commit =>
      obtain ⟨rfl, hasked⟩ := hfollows
      cases col with
      | email =>
        cases ha
        exact .edits (.inl rfl) horders
      | name =>
        cases ha
        exact .edits (.inr rfl) horders
      | role =>
        cases ha
        exact .promotes (.inl rfl) horders (hrole hasked)
      | tokenVersion =>
        cases ha
        exact .promotes (.inr rfl) horders (hrole hasked)
      | balance | passwordHash | wxOpenid => cases ha
    | find | bump | updateBumped | refetch | invalidate | abort | done => cases ha
  | changePassword q =>
    obtain ⟨id, visit, user, hfollows, hasked⟩ := password_asked hsound hkept running
    cases q with
    | commit =>
      obtain rfl := hfollows
      cases col with
      | passwordHash =>
        cases ha
        exact .changesPassword (.inl rfl) hasked
      | tokenVersion =>
        cases ha
        exact .changesPassword (.inr rfl) hasked
      | email | name | role | balance | wxOpenid => cases ha
    | find | bump | update | revoke | revoking | refetch | invalidate | abort | done => cases ha
  | revokeAll q =>
    obtain ⟨id, visit, user, hfollows, hasked⟩ := logout_asked hsound hkept running
    cases q with
    | commit =>
      obtain rfl := hfollows
      cases col with
      | tokenVersion =>
        cases ha
        exact .leaves hasked
      | email | name | role | balance | passwordHash | wxOpenid => cases ha
    | revoke | revoking | bump | invalidate | done => cases ha
  | modifyBalance q =>
    obtain ⟨id, handler, user, hfollows, hpays, horders⟩ := balance_ordered hsound hkept running
    cases q with
    | commit =>
      obtain rfl := hfollows
      cases col with
      | balance =>
        cases ha
        exact .pays hpays horders
      | email | name | role | passwordHash | tokenVersion | wxOpenid => cases ha
    | lock | update | invalidate | abort | done => cases ha
  | resetPassword q =>
    cases q with
    | commit user h updated =>
      cases col with
      | passwordHash =>
        cases ha
        exact .resets (.inl rfl) running rfl
      | tokenVersion =>
        cases ha
        exact .resets (.inr rfl) running rfl
      | email | name | role | balance | wxOpenid => cases ha
    | find | claim | update | refetch | revoke | revoking | abort | done => cases ha
  | setOpenid q => exact absurd running (not_setOpenid hsound hkept)
  | _ => cases ha

end

/-! ## Over whole runs -/

/-- What a step may make of the account `u`. -/
inductive Authorised (crates : ApiCrates) (parseCookie : List Char → Option (String × String))
    (validate : String → Except String WireClaims) (f : Watched State) (u : UserId) :
    Option UserModel → Option UserModel → Prop
  | absent : Authorised crates parseCookie validate f u none none
  | changed {m m' : UserModel}
      (entitled : ∀ col, ¬ Column.Same m m' col →
        Entitled crates parseCookie validate f u col) :
      Authorised crates parseCookie validate f u (some m) (some m')
  | created {m : UserModel} (fresh : m.balance = 0 ∧ m.emailVerified = false ∧ m.wxOpenid = none)
      (role : m.role = "user" ∨ m.role = "admin" ∧ ∃ visit user userId,
        Asked parseCookie validate f .createUser visit user userId ∧ user.role = "system") :
      Authorised crates parseCookie validate f u none (some m)
  | deleted {m : UserModel} {user : AuthUser}
      (orders : Orders crates parseCookie validate f .deleteUser user u)
      (other : parseI64 user.userId ≠ some u) (spares : user.role = "admin" → m.role = "user") :
      Authorised crates parseCookie validate f u (some m) none

theorem Authorised.same {o : Option UserModel} :
    Authorised crates parseCookie validate f u o o := by
  cases o with
  | none => exact .absent
  | some m =>
    refine .changed ?_
    intro col hne
    cases col <;> exact absurd rfl hne

theorem authorised_step (hsound : Api.Sound parseCookie validate (f.map State.api))
    (hkept : Kept crates cfg v f.now)
    (hstep : Does crates cfg v router parseCookie validate f.now t) :
    Authorised crates parseCookie validate f u (f.now.api.world.db.users u).committed
      (t.api.world.db.users u).committed := by
  cases hstep with
  | make => exact .same
  | @api l api other ran =>
    rcases world_of_api ran with hsame | ⟨lw, hworld, -⟩
    · dsimp only
      rw [hsame]
      exact .same
    · obtain ⟨world, visits⟩ := api
      dsimp only at hworld ⊢
      cases hworld with
      | expire | invoke => exact .same
      | @exec c input before stmt k db' reply running issues exec =>
        have hs := Db.exec_user exec u
        have hw : f.now.api.world.Sound := hsound.world
        have hrow := hw.row_step running issues exec u
        change Authorised crates parseCookie validate f u _ (db'.users u).committed
        generalize ho : (f.now.api.world.db.users u).committed = o at hrow
        generalize ho' : (db'.users u).committed = o' at hrow
        cases o with
        | none =>
          cases hrow with
          | same => exact .absent
          | insert _ _ create hr =>
            subst create
            refine .created ⟨rfl, rfl, rfl⟩ ?_
            rcases Call.role_of_create hr with huser | ⟨hadmin, rfl⟩
            · exact .inl huser
            · rcases create_asked hsound hkept running with
                hno | ⟨visit, user, userId, hasked, hrole⟩
              · exact absurd hno (by decide)
              · exact .inr ⟨hadmin, visit, user, userId, hasked, hrole.symm⟩
        | some m =>
          cases o' with
          | none =>
            cases hrow with
            | delete _ delete =>
              subst delete
              obtain ⟨id, actorId, user, ⟨rfl, hrole, hne⟩, hself, horders⟩ :=
                delete_ordered hsound hkept running
              refine .deleted horders ?_ ?_
              · rw [hself]
                exact fun h => hne (Option.some.inj h).symm
              · rw [← hrole]
                exact Call.deleted_role issues hs ho ho'
          | some m' =>
            refine .changed ?_
            intro col hne
            exact entitled_of_alters hsound hkept running
              (hrow.alters (hw.calls c before running) hne)

/-- **Who changes an account.** In every run of the API, its handlers and everything else the
server does, a step changes an account only by someone's authority: email and name by an
admin's or the system's request for it, its role by the system's, its balance by one to the
balance of that account, its password by a request of its own or a reset, and its openid by
nobody. It is deleted by a request of someone else, an admin deleting only users; a new one is
a user's, or an admin's if the system has asked for it. Every such request has presented a
token with a version that the row of its user has had. -/
theorem changes_authorised (crates : ApiCrates) (cfg : Settings) (v : Validator)
    (router : Adapters.ApiRouter) (parseCookie : List Char → Option (String × String))
    (validate : String → Except String WireClaims) (w : World) (h0 : w.Initial)
    (hcaches : w.CachesRows) (f f' : Watched State) (l : Label)
    (h : Runs.Reaches (Watched.next (step crates cfg v router parseCookie validate)) Runs.Free
      ⟨⟨⟨w, []⟩, []⟩, []⟩ f)
    (hstep : Watched.next (step crates cfg v router parseCookie validate) f l = some f')
    (u : UserId) :
    Authorised crates parseCookie validate f u (f.now.api.world.db.users u).committed
      (f'.now.api.world.db.users u).committed := by
  obtain ⟨t, ht, rfl⟩ := Watched.next_some hstep
  exact authorised_step (Api.sound_reached h0 hcaches (api_reached h)) (kept_reached h0 h)
    (step_does ht)

/-! ## The system makes an admin -/

def rooted : World :=
  .ofRows [.registered 1 "root@example.com" "Passw0rd!" "system",
    .registered 2 "ada@example.com" "Passw0rd!" "user"] [] 1

def rootToken : JwtClaims := generateToken 0 1 "system" 3600 false 1

def validateRoot (token : String) : Except String WireClaims :=
  if token = "root" then .ok (.ofToken rootToken) else .error "InvalidToken"

def bytesOf (text : String) : Adapters.Bytes := text.toList.map fun c => c.val.toUInt8

def promoteAda : Adapters.Request where
  method := "PUT"
  path := "/users/2"
  headers := [Api.authorization ⟨"Bearer root", by decide⟩,
    (Adapters.HeaderName.CONTENT_TYPE, ⟨"application/x-www-form-urlencoded", by decide⟩)]
  body := .ok (bytesOf "role=admin")

/-- serde at the one body of the run, and a path without percent signs. -/
def formCrates : ApiCrates where
  decode part := some (.ofList part)
  createUser _ := .error "missing field"
  updateUser req :=
    if req.cachedBody = bytesOf "role=admin" then .ok ⟨none, none, some "admin"⟩
    else .error "unknown field"
  changePassword _ := .error "missing field"
  balance _ := .error "missing field"
  amount _ := .error "missing field"
  register _ := .error "missing field"

/-- The request, its check, its handler, and all of `update_user` but its COMMIT. -/
def promotion : List Label :=
  [.api (.arrive .axum true ⟨"PUT", [.text "users", .param], true⟩ promoteAda),
    .api (.server (.exec 0 {})), .api (.server (.exec 0 {})), .api (.server (.exec 0 {})),
    .api (.resume 0), .handle 0, .api (.server (.exec 1 {})), .api (.server (.exec 1 {})),
    .api (.server (.exec 1 {}))]

def promotionStep : Watched State → Label → Option (Watched State) :=
  Watched.next (step formCrates .plain ⟨fun _ => true, fun _ => ""⟩ .bySegments (fun _ => none)
    validateRoot)

def promotionRun : Option (Watched State) :=
  Runs.run promotionStep Runs.Free ⟨⟨⟨rooted, []⟩, []⟩, []⟩ promotion

theorem promotion_runs : promotionRun.isSome = true := by decide +kernel

def promoted : Option (Watched State) :=
  promotionStep (promotionRun.get promotion_runs) (.api (.server (.exec 1 {})))

theorem promoted_runs : promoted.isSome = true := by decide +kernel

theorem changes_authorised_promotion : ∃ user,
    Orders formCrates (fun _ => none) validateRoot (promotionRun.get promotion_runs) .updateUser
      user 2 ∧ user.role = "system" := by
  have hinitial : rooted.Initial := by
    apply World.initial_ofRows
    intro m hm
    rcases List.mem_cons.mp hm with rfl | hm
    · exact UserModel.proper_registered
    · rw [List.mem_singleton.mp hm]
      exact UserModel.proper_registered
  have hcaches : rooted.CachesRows := by
    intro facet u v hv
    cases facet <;> cases hv
  have hbefore : ((promotionRun.get promotion_runs).now.api.world.db.users 2).committed.map
      (·.role) = some "user" := by decide +kernel
  have hafter : ((promoted.get promoted_runs).now.api.world.db.users 2).committed.map
      (·.role) = some "admin" := by decide +kernel
  obtain ⟨m, hm, hrole⟩ := Option.map_eq_some_iff.mp hbefore
  obtain ⟨m', hm', hrole'⟩ := Option.map_eq_some_iff.mp hafter
  have hstep : promotionStep (promotionRun.get promotion_runs) (.api (.server (.exec 1 {}))) =
      some (promoted.get promoted_runs) := (Option.some_get promoted_runs).symm
  have hchange := changes_authorised formCrates .plain ⟨fun _ => true, fun _ => ""⟩ .bySegments
    (fun _ => none) validateRoot rooted hinitial hcaches (promotionRun.get promotion_runs)
    (promoted.get promoted_runs) (.api (.server (.exec 1 {})))
    (Runs.reaches_run_get promotion_runs) hstep 2
  rw [hm, hm'] at hchange
  cases hchange with
  | changed entitled =>
    have hne : ¬ Column.Same m m' .role := by
      intro hsame
      have hsame : m'.role = m.role := hsame
      rw [hrole, hrole'] at hsame
      exact absurd hsame (by decide)
    cases entitled .role hne with
    | promotes rank orders system => exact ⟨_, orders, system⟩
    | edits profile => rcases profile with h | h <;> cases h
    | changesPassword secret => rcases secret with h | h <;> cases h
    | resets secret => rcases secret with h | h <;> cases h

end App

end Webshelf
