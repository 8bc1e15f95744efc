import Webshelf.Adapters.Authentication
import Webshelf.Server.Seen

/-!
# Who reaches the handlers

Requests to the routes under `/api` come in through the middlewares of either
adapter while the services run. A request waits for its `check_token_version`
like any other call, and its handler is called only after that.
-/

namespace Webshelf

open Adapters (Adapter AuthUser WireClaims Authenticated ApiRoute ApiRouter apiRoutes requireAdmin
  Presents parseI64)
open Runs (Watched)

namespace Api

inductive Phase where
  | checking (userId : UserId) (claims : WireClaims) (call : CallId)
  | over (result : Authenticated)

structure Visit where
  adapter : Adapter
  route : ApiRoute
  request : Adapters.Request
  phase : Phase

/-- The services, and the requests so far. -/
structure State where
  world : World
  visits : List Visit := []

inductive Label where
  /-- A request whose path the router has matched. -/
  | arrive (adapter : Adapter) (stateFound : Bool) (route : ApiRoute) (request : Adapters.Request)
  | server (l : Webshelf.Label)
  /-- The middleware of a request goes on after its check. -/
  | resume (n : Nat)

/-- The guard of the route after the middleware. -/
def guarded (route : ApiRoute) : Authenticated → Authenticated
  | .answered resp => .answered resp
  | .passed user => if route.admin then requireAdmin user else .passed user

section
variable (cfg : Settings) (router : ApiRouter)
  (parseCookie : List Char → Option (String × String))
  (validate : String → Except String WireClaims)

def step (s : State) : Label → Option State
  | .arrive adapter stateFound route request =>
    if route ∈ apiRoutes ∧ router.accepts adapter route request = true then
      match adapter.authenticate parseCookie validate stateFound request with
      | .done result =>
        some { s with visits := s.visits ++
          [⟨adapter, route, request, .over (guarded route result)⟩] }
      | .checkTokenVersion userId claims =>
        (s.world.step cfg (.invoke (.checkTokenVersion (.get userId claims.tokenVersion)))).map
          fun world => ⟨world, s.visits ++
            [⟨adapter, route, request, .checking userId claims s.world.calls.length⟩]⟩
    else none
  | .server l => (s.world.step cfg l).map fun world => { s with world }
  | .resume n => do
    let visit ← s.visits[n]?
    match visit.phase with
    | .over _ => none
    | .checking _ claims call => match s.world.calls[call]? with
      | some (.checkTokenVersion (.done ok)) =>
        let result := guarded visit.route (.ofCheck claims ok)
        some { s with visits := s.visits.set n { visit with phase := .over result } }
      | _ => none

end

/-! ## What holds of a request -/

variable {cfg : Settings} {router : ApiRouter}
  {parseCookie : List Char → Option (String × String)}
  {validate : String → Except String WireClaims} {s : State} {f : Watched State} {l : Label}
  {visit : Visit} {user : Option AuthUser} {w w' : World} {g : Watched World}

/-- The services of the run. -/
def worlds (f : Watched State) : Watched World := ⟨f.now.world, f.past.map (·.world)⟩

/-- The request has been authenticated as the user with these claims, whose token version the
user once had. -/
structure Vetted (parseCookie : List Char → Option (String × String))
    (validate : String → Except String WireClaims) (g : Watched World) (visit : Visit)
    (user : AuthUser) (userId : UserId) (claims : WireClaims) : Prop where
  presents : Presents parseCookie validate visit.request userId claims
  named : user = .ofClaims claims
  version : World.Saw g fun a => a.db.tokenVersion userId = some claims.tokenVersion
  role : visit.route.admin = true → user.role = "admin" ∨ user.role = "system"

/-- Where a request stands. -/
def Good (parseCookie : List Char → Option (String × String))
    (validate : String → Except String WireClaims) (g : Watched World) (visit : Visit) : Prop :=
  match visit.phase with
  | .over (.answered _) => True
  | .over (.passed user) => visit.route = ⟨"GET", [.text "health"], false⟩ ∨
    ∃ u userId claims, user = some u ∧ Vetted parseCookie validate g visit u userId claims
  | .checking userId claims call => Presents parseCookie validate visit.request userId claims ∧
    ∃ q, g.now.calls[call]? = some (.checkTokenVersion q) ∧
      (q.asks = some (userId, claims.tokenVersion) ∨ ∃ ok, q = .done ok ∧ (ok = true →
        World.Saw g fun a => a.db.tokenVersion userId = some claims.tokenVersion))

theorem good_of_guarded {adapter : Adapter} {route : ApiRoute} {request : Adapters.Request}
    {u : AuthUser} {userId : UserId} {claims : WireClaims}
    (hp : Presents parseCookie validate request userId claims) (hnamed : u = .ofClaims claims)
    (hsaw : World.Saw g fun a => a.db.tokenVersion userId = some claims.tokenVersion) :
    Good parseCookie validate g
      ⟨adapter, route, request, .over (guarded route (.passed (some u)))⟩ := by
  unfold Good guarded
  dsimp only
  cases hadmin : route.admin with
  | false =>
    simp only [Bool.false_eq_true, if_false]
    exact .inr ⟨u, userId, claims, rfl, hp, hnamed, hsaw, fun h => by
      rw [hadmin] at h
      cases h⟩
  | true =>
    simp only [if_true]
    cases hguard : requireAdmin (some u) with
    | answered resp => trivial
    | passed user =>
      obtain ⟨rfl, u', hu, hrole⟩ := Adapters.role_of_requireAdmin hguard
      cases hu
      exact .inr ⟨u, userId, claims, rfl, hp, hnamed, hsaw, fun _ => hrole⟩

/-- A check is asked the same until it answers. -/
theorem asks_step {q : CheckTokenVersion} {env : Env} {stmt : Stmt}
    {k : Except DbErr stmt.Reply → Call} {ask : UserId × Int} (ha : q.asks = some ask)
    (issues : Call.next cfg env (.checkTokenVersion q) = some ⟨stmt, k⟩)
    (reply : Except DbErr stmt.Reply) :
    ∃ q', k reply = .checkTokenVersion q' ∧ (q'.asks = some ask ∨ ∃ ok, q' = .done ok) := by
  cases q with
  | get id v =>
    cases issues
    dsimp only
    split
    · exact ⟨_, rfl, .inr ⟨_, rfl⟩⟩
    · exact ⟨_, rfl, .inl ha⟩
  | find id v =>
    cases issues
    rcases reply with e | _ | m
    · exact ⟨_, rfl, .inr ⟨_, rfl⟩⟩
    · exact ⟨_, rfl, .inr ⟨_, rfl⟩⟩
    · exact ⟨_, rfl, .inl ha⟩
  | set id v current =>
    cases issues
    exact ⟨_, rfl, .inr ⟨_, rfl⟩⟩
  | done => cases ha

/-- A step of the services leaves a request where it stands. -/
theorem Good.server {lw : Webshelf.Label} (hgood : Good parseCookie validate g visit)
    (hW : World.Witnessed g) (ht : World.Transition cfg g.now lw w') :
    Good parseCookie validate ⟨w', g.states⟩ visit := by
  unfold Good at hgood ⊢
  split at hgood
  · trivial
  · rcases hgood with hhealth | ⟨u, userId, claims, hu, hv⟩
    · exact .inl hhealth
    · exact .inr ⟨u, userId, claims, hu, hv.presents, hv.named, hv.version.later, hv.role⟩
  · rename_i userId claims call _
    obtain ⟨hp, q, hq, hstage⟩ := hgood
    refine ⟨hp, ?_⟩
    cases ht with
    | invoke =>
      refine ⟨q, World.join_old hq, ?_⟩
      rcases hstage with ha | ⟨ok, hok, hsaw⟩
      · exact .inl ha
      · exact .inr ⟨ok, hok, fun h => (hsaw h).later⟩
    | expire =>
      refine ⟨q, hq, ?_⟩
      rcases hstage with ha | ⟨ok, hok, hsaw⟩
      · exact .inl ha
      · exact .inr ⟨ok, hok, fun h => (hsaw h).later⟩
    | @exec c input before stmt k db' reply running issues ran =>
      by_cases hc : call = c
      · subst hc
        rw [running] at hq
        cases hq
        rcases hstage with ha | ⟨ok, rfl, -⟩
        · obtain ⟨q', hk, hq'⟩ := asks_step ha issues reply
          refine ⟨q', (World.after_self running).trans (congrArg some hk), ?_⟩
          rcases hq' with ha' | ⟨ok, rfl⟩
          · exact .inl ha'
          · refine .inr ⟨ok, rfl, ?_⟩
            rintro rfl
            exact (hW.checked running issues ran ha hk).later
        · cases issues
      · refine ⟨q, by rw [World.after_other hc]; exact hq, ?_⟩
        rcases hstage with ha | ⟨ok, hok, hsaw⟩
        · exact .inl ha
        · exact .inr ⟨ok, hok, fun h => (hsaw h).later⟩

theorem Good.stay (hgood : Good parseCookie validate g visit) :
    Good parseCookie validate ⟨g.now, g.states⟩ visit := by
  unfold Good at hgood ⊢
  split at hgood
  · trivial
  · rcases hgood with hhealth | ⟨u, userId, claims, hu, hv⟩
    · exact .inl hhealth
    · exact .inr ⟨u, userId, claims, hu, hv.presents, hv.named, hv.version.later, hv.role⟩
  · obtain ⟨hp, q, hq, hstage⟩ := hgood
    refine ⟨hp, q, hq, ?_⟩
    rcases hstage with ha | ⟨ok, hok, hsaw⟩
    · exact .inl ha
    · exact .inr ⟨ok, hok, fun h => (hsaw h).later⟩

/-- What holds in every state of a run. -/
structure Sound (parseCookie : List Char → Option (String × String))
    (validate : String → Except String WireClaims) (f : Watched State) : Prop where
  world : f.now.world.Sound
  witnessed : World.Witnessed (worlds f)
  good : ∀ visit ∈ f.now.visits, Good parseCookie validate (worlds f) visit

theorem Sound.step {f' : Watched State} (h : Sound parseCookie validate f)
    (hstep : Watched.next (step cfg router parseCookie validate) f l = some f') :
    Sound parseCookie validate f' := by
  obtain ⟨t, ht, rfl⟩ := Watched.next_some hstep
  -- the states of the services are those of the run
  have hworlds (w : World) (visits : List Visit) :
      worlds ⟨⟨w, visits⟩, f.states⟩ = ⟨w, (worlds f).states⟩ := rfl
  cases l with
  | arrive adapter stateFound route request =>
    simp only [Api.step] at ht
    split at ht
    · rename_i hroute
      split at ht
      · rename_i result hdone
        cases ht
        refine ⟨h.world, h.witnessed.stay, ?_⟩
        intro visit hvisit
        rcases List.mem_append.mp hvisit with hvisit | hvisit
        · exact (h.good visit hvisit).stay
        · rw [List.mem_singleton.mp hvisit]
          rcases Adapter.authenticate_done hdone with ⟨resp, rfl⟩ | ⟨hhealth, rfl⟩
          · trivial
          · have hrt := router.health adapter route hroute.1 request hroute.2 hhealth
            subst hrt
            exact .inl rfl
      · rename_i userId claims hcheck
        obtain ⟨w, hw, rfl⟩ := Option.map_eq_some_iff.mp ht
        have hinvoke := World.step_transition hw
        refine ⟨h.world.step hinvoke, h.witnessed.step h.world hinvoke, ?_⟩
        intro visit hvisit
        rcases List.mem_append.mp hvisit with hvisit | hvisit
        · exact (h.good visit hvisit).server h.witnessed hinvoke
        · rw [List.mem_singleton.mp hvisit]
          refine ⟨Adapter.authenticate_check hcheck, .get userId claims.tokenVersion, ?_, .inl rfl⟩
          cases hinvoke
          exact List.getElem?_concat_length
    · cases ht
  | server lw =>
    obtain ⟨w, hw, rfl⟩ := Option.map_eq_some_iff.mp ht
    have hserver := World.step_transition hw
    refine ⟨h.world.step hserver, h.witnessed.step h.world hserver, ?_⟩
    intro visit hvisit
    exact (h.good visit hvisit).server h.witnessed hserver
  | resume n =>
    obtain ⟨visit, hvisit, ht⟩ := Option.bind_eq_some_iff.mp ht
    have hgood := h.good visit (List.mem_of_getElem? hvisit)
    unfold Good at hgood
    split at ht
    · cases ht
    · rename_i userId claims call hphase
      split at ht
      · rename_i ok hanswer
        cases ht
        rw [hphase] at hgood
        obtain ⟨hp, q, hq, hstage⟩ := hgood
        refine ⟨h.world, h.witnessed.stay, ?_⟩
        intro visit' hvisit'
        rcases List.mem_or_eq_of_mem_set hvisit' with hold | rfl
        · exact (h.good visit' hold).stay
        · cases ok with
          | false => trivial
          | true =>
            cases hanswer.symm.trans hq
            rcases hstage with ha | ⟨ok, hok, hsaw⟩
            · cases ha
            · cases hok
              exact good_of_guarded hp rfl (hsaw rfl).later
      · cases ht

theorem sound_reached (h0 : w.Initial) (hcaches : w.CachesRows)
    (h : Runs.Reaches (Watched.next (step cfg router parseCookie validate)) Runs.Free
      ⟨⟨w, []⟩, []⟩ f) :
    Sound parseCookie validate f :=
  h.invariant ⟨h0.sound, h0.witnessed hcaches, List.forall_mem_nil _⟩
    fun _ _ _ hsound _ hstep => hsound.step hstep

/-- **Who reaches the handlers.** In every run, with whatever services beside it, a request that
is passed on to its handler is one for the health check, or has presented a token whose
claims name its user, with a token version that the row of that user has had. Behind the admin
guard the claims say admin or system, and if the token is one that the server has issued in
the run, the row has had that role together with that version. -/
theorem handlers_reached (cfg : Settings) (router : ApiRouter)
    (parseCookie : List Char → Option (String × String))
    (validate : String → Except String WireClaims) (w : World) (h0 : w.Initial)
    (hcaches : w.CachesRows) (f : Watched State)
    (h : Runs.Reaches (Watched.next (step cfg router parseCookie validate)) Runs.Free
      ⟨⟨w, []⟩, []⟩ f)
    (visit : Visit) (hvisit : visit ∈ f.now.visits) (user : Option AuthUser)
    (hpassed : visit.phase = .over (.passed user)) :
    visit.route = ⟨"GET", [.text "health"], false⟩ ∨
    ∃ u userId claims, user = some u ∧ u = .ofClaims claims ∧
      Presents parseCookie validate visit.request userId claims ∧
      (∃ a ∈ f.states, a.world.db.tokenVersion userId = some u.tokenVersion) ∧
      (visit.route.admin = true → u.role = "admin" ∨ u.role = "system") ∧
      ∀ t c token, (t, Event.jwtIssued c token) ∈ f.now.world.trace → claims = .ofToken token →
        ∃ a ∈ f.states, ∃ m, (a.world.db.users userId).committed = some m ∧ m.role = u.role ∧
          m.tokenVersion = u.tokenVersion := by
  have hsound := sound_reached h0 hcaches h
  have hgood := hsound.good visit hvisit
  unfold Good at hgood
  rw [hpassed] at hgood
  rcases hgood with hhealth | ⟨u, userId, claims, rfl, hv⟩
  · exact .inl hhealth
  · obtain ⟨a, ha, hversion⟩ := hv.version
    obtain ⟨b, hb, rfl⟩ := List.mem_map.mp (show a ∈ f.states.map (·.world) from ha)
    refine .inr ⟨u, userId, claims, rfl, hv.named, hv.presents, ⟨b, hb, ?_⟩, hv.role, ?_⟩
    · rw [hv.named]
      exact hversion
    · rintro t c token he rfl
      obtain ⟨-, -, -, hparse⟩ := hv.presents
      have hid : userId = token.sub := Adapters.parseI64_toString hparse
      obtain ⟨a', ha', m, hm, hrole, hmv⟩ := hsound.witnessed.issued t c token he
      obtain ⟨b', hb', rfl⟩ := List.mem_map.mp (show a' ∈ f.states.map (·.world) from ha')
      rw [hid, hv.named]
      exact ⟨b', hb', m, hm, hrole, hmv⟩

/-! ## An admin lists the users -/

/-- An admin's account. -/
def staffed : World :=
  .ofRows [.registered 1 "ada@example.com" "Passw0rd!" "admin"] [] 1

def adaToken : JwtClaims := generateToken 0 1 "admin" 3600 false 1

/-- The decoding of the one token that the run below presents. -/
def validateAda (token : String) : Except String WireClaims :=
  if token = "ada" then .ok (.ofToken adaToken) else .error "InvalidToken"

def authorization (value : Adapters.HeaderValue) : Adapters.HeaderName × Adapters.HeaderValue :=
  (⟨"authorization", by decide⟩, value)

def listUsers : Adapters.Request where
  method := "GET"
  path := "/users"
  headers := [authorization ⟨"Bearer ada", by decide⟩]

/-- A login, and with its token the request. -/
def oneRequest : List Label :=
  [.server (.invoke (.wxLogin (.find 1))), .server (.exec 0 {}),
    .arrive .axum true ⟨"GET", [.text "users"], true⟩ listUsers,
    .server (.exec 1 {}), .server (.exec 1 {}), .server (.exec 1 {}), .resume 0]

def oneRequestRun : Option (Watched State) :=
  Runs.run (Watched.next (step .plain .bySegments (fun _ => none) validateAda)) Runs.Free
    ⟨⟨staffed, []⟩, []⟩ oneRequest

theorem oneRequest_runs : oneRequestRun.isSome = true := by decide +kernel

theorem initial_staffed : staffed.Initial :=
  World.initial_ofRow UserModel.proper_registered

/-- The request is with its handler in the end. -/
theorem oneRequest_passed : (oneRequestRun.get oneRequest_runs).now.visits[0]? =
    some ⟨.axum, ⟨"GET", [.text "users"], true⟩, listUsers,
      .over (.passed (some (.ofClaims (.ofToken adaToken))))⟩ := by
  rfl

theorem handlers_reached_admin :
    ∃ a ∈ (oneRequestRun.get oneRequest_runs).states, ∃ m,
      (a.world.db.users 1).committed = some m ∧ m.role = "admin" ∧ m.tokenVersion = 1 := by
  have hcaches : staffed.CachesRows := by
    intro facet u v hv
    cases facet <;> cases hv
  rcases handlers_reached .plain .bySegments (fun _ => none) validateAda staffed initial_staffed
    hcaches _ (Runs.reaches_run_get oneRequest_runs) _ (List.mem_of_getElem? oneRequest_passed)
    _ rfl with hhealth | ⟨u, userId, claims, hu, hnamed, ⟨token, -, hvalid, hparse⟩, -, -, hrow⟩
  · exact absurd hhealth (by decide)
  · cases hu
    have hclaims : claims = .ofToken adaToken := by
      unfold validateAda at hvalid
      split at hvalid
      · exact (Except.ok.inj hvalid).symm
      · cases hvalid
    have hissued : (2, Event.jwtIssued 0 adaToken) ∈
        (oneRequestRun.get oneRequest_runs).now.world.trace := by decide +kernel
    subst hclaims
    cases Adapters.parseI64_toString hparse
    exact hrow 2 0 adaToken hissued rfl

end Api

end Webshelf
