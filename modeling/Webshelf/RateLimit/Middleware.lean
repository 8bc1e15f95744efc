import Webshelf.Adapters.Request
import Webshelf.Lib.Threads
import Webshelf.RateLimit.Limiter

/-!
# The rate limit middleware

A request of a limited route is counted under its address, and where the route
says so under the email of its body, before a handler sees it. Either adapter
waits at every `check` for Redis, so requests interleave there. Both come to the
same decision; they differ in how they hand the body over that they have read.
-/

namespace Webshelf

open Adapters (Adapter Bytes Json UnifiedRequest extractEmailFromBody errorResponse)

namespace RateLimit

deriving instance DecidableEq for RateLimitConfig

/-- `RateLimitConfig::default`, next to `RedisRateLimiter`'s client. -/
structure RedisRateLimiter where
  isAvailable : Bool
  config : RateLimitConfig := ⟨"ratelimit"⟩
  failOpen : Bool := true
  deriving DecidableEq

structure RateLimitGuard where
  limiter : RedisRateLimiter
  ipMaxRequests : Nat
  ipWindowSeconds : Nat
  emailMaxRequests : Option Nat
  emailWindowSeconds : Nat
  keyPrefix : String
  deriving DecidableEq

def rateLimitedResponse : Adapters.Response :=
  errorResponse 429 "rate_limited" "Too many requests. Please try again later."

def internalErrorResponse : Adapters.Response :=
  errorResponse 500 "internal_error" "An unexpected error occurred"

/-- What becomes of a request. -/
inductive Served where
  | answered (resp : Adapters.Response)
  | handled (req : UnifiedRequest)

def Served.ofEntry : Except Adapters.Response UnifiedRequest → Served
  | .error resp => .answered resp
  | .ok req => .handled req

/-- What a `check` is asked. -/
structure Query where
  key : String
  maxRequests : Nat
  windowSeconds : Nat
  deriving DecidableEq

/-- What is left of a middleware: nothing, or a `check` and what it does with the answer. -/
inductive Course where
  | done (served : Served)
  | check (query : Query) (next : Except RateLimitError Bool → Course)

namespace RateLimitGuard

def ipKey (guard : RateLimitGuard) (ip : String) : String := guard.keyPrefix ++ ":ip:" ++ ip

def emailKey (guard : RateLimitGuard) (email : String) : String :=
  guard.keyPrefix ++ ":email:" ++ email

/-- The `match` on the answer of a `check`. -/
def onAnswer (guard : RateLimitGuard) (next : Course) : Except RateLimitError Bool → Course
  | .ok true => next
  | .ok false => .done (.answered rateLimitedResponse)
  | .error _ =>
    if guard.limiter.failOpen then next else .done (.answered internalErrorResponse)

end RateLimitGuard

section
variable (json : Bytes → Option Json) (form : Bytes → List (String × String))
  (toLowercase : String → String)

/-- The middleware of both adapters. `handOver` gets the bytes of a body that has been read. -/
def limited (guard : RateLimitGuard) (req : Adapters.Request)
    (handOver : Option Bytes → Except Adapters.Response UnifiedRequest) : Course :=
  if !guard.limiter.isAvailable then .done (.ofEntry (handOver none))
  else
    let byEmail : Course :=
      match guard.emailMaxRequests with
      | none => .done (.ofEntry (handOver none))
      | some emailMax => match req.body with
        | .error _ => .done (.answered internalErrorResponse)
        | .ok bytes =>
          let next : Course := .done (.ofEntry (handOver (some bytes)))
          match extractEmailFromBody json form toLowercase bytes with
          | none => next
          | some email =>
            .check ⟨guard.emailKey email, emailMax, guard.emailWindowSeconds⟩ (guard.onAnswer next)
    match req.clientIp with
    | none => byEmail
    | some ip =>
      .check ⟨guard.ipKey ip, guard.ipMaxRequests, guard.ipWindowSeconds⟩ (guard.onAnswer byEmail)

end

section
variable (json : Bytes → Option Json) (form : Bytes → List (String × String))
  (toLowercase : String → String)

/-- `rate_limit_middleware` of Axum. -/
def rateLimitMiddleware (guard : RateLimitGuard) (req : Adapters.Request) : Course :=
  limited json form toLowercase guard req (Adapter.axum.handOver req)

/-- `RateLimitMiddleware::handle` of Salvo. -/
def RateLimitMiddleware.handle (guard : RateLimitGuard) (req : Adapters.Request) : Course :=
  limited json form toLowercase guard req (Adapter.salvo.handOver req)

def serve (adapter : Adapter) (guard : RateLimitGuard) (req : Adapters.Request) : Course :=
  match adapter with
  | .axum => rateLimitMiddleware json form toLowercase guard req
  | .salvo => RateLimitMiddleware.handle json form toLowercase guard req

end

/-- `auth_routes`, the guard of each path. -/
def authRoutes (limiter : RedisRateLimiter) : List (String × RateLimitGuard) :=
  let makeGuard (keyPrefix : String) (ipMaxRequests : Nat) (emailMaxRequests : Option Nat) :
      RateLimitGuard :=
    { limiter, ipMaxRequests, ipWindowSeconds := 600, emailMaxRequests,
      emailWindowSeconds := 600, keyPrefix }
  [("/login", makeGuard "login" 20 (some 5)),
   ("/register", makeGuard "register" 10 none),
   ("/verify-email", makeGuard "verify-email" 20 none),
   ("/resend-code", makeGuard "resend-code" 5 none),
   ("/forgot-password", makeGuard "forgot-password" 5 none),
   ("/reset-password", makeGuard "reset-password" 10 none),
   ("/refresh", makeGuard "refresh" 30 none),
   ("/logout", makeGuard "logout" 30 none),
   ("/wechat-enabled", makeGuard "wechat-enabled" 60 none),
   ("/wx-login", makeGuard "wx-login" 20 none)]

/-! ## Requests in flight -/

/-- A `check` with its answer. -/
structure Asked where
  query : Query
  now : Time
  line : Line
  result : Except RateLimitError Bool

/-- Redis, and every `check` that was made. -/
structure Door where
  counters : Counters
  asked : List Asked := []

def Door.ask (cfg : RateLimitConfig) (door : Door) (q : Query) (now : Time) (line : Line) :
    Door × Asked :=
  let (counters, result) :=
    check cfg (door.counters.tick now) q.key q.maxRequests q.windowSeconds line
  let asked : Asked := { query := q, now, line, result }
  (⟨counters, door.asked ++ [asked]⟩, asked)

/-- A request on its way, with the answers it has had. -/
structure Flight where
  guard : RateLimitGuard
  request : Adapters.Request
  answers : List Asked := []

def Course.answer : Course → Except RateLimitError Bool → Course
  | .done served, _ => .done served
  | .check _ next, result => next result

/-- What all requests share. -/
structure Front where
  adapter : Adapter
  guards : List RateLimitGuard
  json : Bytes → Option Json
  form : Bytes → List (String × String)
  toLowercase : String → String

namespace Front

def course (front : Front) (f : Flight) : Course :=
  f.answers.foldl (fun c a => c.answer a.result)
    (serve front.json front.form front.toLowercase front.adapter f.guard f.request)

/-- One `check` of one request; the time of Redis does not run backwards. -/
def next (front : Front) (door : Door) (f : Flight) (input : Time × Line) :
    Option (Door × Flight) :=
  match front.course f with
  | .done _ => none
  | .check q _ =>
    if input.1 < door.counters.clock then none
    else
      let (door, asked) := door.ask f.guard.limiter.config q input.1 input.2
      some (door, { f with answers := f.answers ++ [asked] })

/-- Any number of requests to the limited routes. -/
def program (front : Front) : Threads.Program Door Flight (Time × Line) Empty where
  initial f := f.answers.isEmpty && front.guards.contains f.guard
  next _ door f input := front.next door f input
  surround _ e := nomatch e

end Front

/-! ## One request -/

/-- Redis has counted the request within the limit. -/
def Asked.allowed (a : Asked) : Bool :=
  match a.result with
  | .ok b => b
  | .error _ => false

/-- The answer lets the request go on: Redis does, or it failed and that is let pass. -/
def Asked.Admitted (guard : RateLimitGuard) (a : Asked) : Prop :=
  a.allowed = true ∨ guard.limiter.failOpen = true ∧ ∃ e, a.result = .error e

section
variable {front : Front} {guard : RateLimitGuard} {req : Adapters.Request} {f g : Flight}
  {a : Asked} {door door' : Door} {input : Time × Line} {q : Query} {qs : List Query}
  {served : Served} {u : UnifiedRequest} {json : Bytes → Option Json}
  {form : Bytes → List (String × String)} {toLowercase : String → String}
  {handOver : Option Bytes → Except Adapters.Response UnifiedRequest}

/-- Checks in a row, each of which the guard has to let pass. -/
def RateLimitGuard.gate (guard : RateLimitGuard) : List Query → Served → Course
  | [], served => .done served
  | q :: qs, served => .check q (guard.onAnswer (guard.gate qs served))

theorem gate_answer (guard : RateLimitGuard) (q : Query) (qs : List Query) (served : Served)
    (a : Asked) :
    (a.Admitted guard ∧ (guard.gate (q :: qs) served).answer a.result = guard.gate qs served) ∨
      ∃ resp, (guard.gate (q :: qs) served).answer a.result = .done (.answered resp) := by
  cases hr : a.result with
  | ok b =>
    cases b with
    | true => exact .inl ⟨.inl (by rw [Asked.allowed, hr]), rfl⟩
    | false => exact .inr ⟨rateLimitedResponse, rfl⟩
  | error e =>
    cases hopen : guard.limiter.failOpen with
    | true =>
      refine .inl ⟨.inr ⟨hopen, e, hr⟩, ?_⟩
      exact if_pos hopen
    | false =>
      refine .inr ⟨internalErrorResponse, ?_⟩
      exact if_neg (by rw [hopen]; exact Bool.false_ne_true)

/-- The checks of a request. -/
def RateLimitGuard.queries (guard : RateLimitGuard) (json : Bytes → Option Json)
    (form : Bytes → List (String × String)) (toLowercase : String → String)
    (req : Adapters.Request) : List Query :=
  if guard.limiter.isAvailable then
    let byIp := req.clientIp.map fun ip =>
      (⟨guard.ipKey ip, guard.ipMaxRequests, guard.ipWindowSeconds⟩ : Query)
    let byEmail := guard.emailMaxRequests.bind fun emailMax => req.body.toOption.bind fun bytes =>
      (extractEmailFromBody json form toLowercase bytes).map fun email =>
        (⟨guard.emailKey email, emailMax, guard.emailWindowSeconds⟩ : Query)
    byIp.toList ++ byEmail.toList
  else []

/-- What becomes of a request that passes all its checks. -/
def RateLimitGuard.entry (guard : RateLimitGuard) (req : Adapters.Request)
    (handOver : Option Bytes → Except Adapters.Response UnifiedRequest) : Served :=
  if guard.limiter.isAvailable && guard.emailMaxRequests.isSome then
    match req.body with
    | .error _ => .answered internalErrorResponse
    | .ok bytes => .ofEntry (handOver (some bytes))
  else .ofEntry (handOver none)

/-- The middleware makes its checks in a row. -/
theorem limited_eq_gate (guard : RateLimitGuard) (req : Adapters.Request) :
    limited json form toLowercase guard req handOver =
      guard.gate (guard.queries json form toLowercase req) (guard.entry req handOver) := by
  unfold limited RateLimitGuard.queries RateLimitGuard.entry
  cases guard.limiter.isAvailable with
  | false => rfl
  | true =>
    cases guard.emailMaxRequests with
    | none => cases req.clientIp <;> rfl
    | some emailMax =>
      cases req.body with
      | error e => cases req.clientIp <;> rfl
      | ok bytes =>
        simp only [Except.toOption, Option.bind_some]
        cases extractEmailFromBody json form toLowercase bytes <;> cases req.clientIp <;> rfl

theorem serve_eq_gate (adapter : Adapter) (guard : RateLimitGuard) (req : Adapters.Request) :
    serve json form toLowercase adapter guard req =
      guard.gate (guard.queries json form toLowercase req)
        (guard.entry req (adapter.handOver req)) := by
  cases adapter <;> exact limited_eq_gate guard req

namespace Front

def queries (front : Front) (f : Flight) : List Query :=
  f.guard.queries front.json front.form front.toLowercase f.request

def entry (front : Front) (f : Flight) : Served :=
  f.guard.entry f.request (front.adapter.handOver f.request)

/-- The request is with its handler. -/
def Reached (front : Front) (f : Flight) (u : UnifiedRequest) : Prop :=
  front.course f = .done (.handled u)

/-- A request has made the first of its checks and still waits for the rest, or has been
answered by the middleware. -/
inductive Underway (front : Front) (f : Flight) : Prop
  | admitted (rest : List Query) (made : front.queries f = f.answers.map (·.query) ++ rest)
      (all : ∀ a ∈ f.answers, a.Admitted f.guard)
      (left : front.course f = f.guard.gate rest (front.entry f))
  | refused (resp : Adapters.Response) (left : front.course f = .done (.answered resp))

theorem underway_begin (h : f.answers = []) : front.Underway f := by
  refine .admitted (front.queries f) ?_ ?_ ?_
  · rw [h]
    rfl
  · rw [h]
    exact List.forall_mem_nil _
  · rw [course, h]
    exact serve_eq_gate front.adapter f.guard f.request

theorem course_append (front : Front) (f : Flight) (a : Asked) :
    front.course { f with answers := f.answers ++ [a] } = (front.course f).answer a.result := by
  rw [course, List.foldl_append]
  rfl

/-- Everything a step does. -/
theorem next_cases (h : front.next door f input = some (door', g)) :
    ∃ q next, front.course f = .check q next ∧ door.counters.clock ≤ input.1 ∧
      door' = (door.ask f.guard.limiter.config q input.1 input.2).1 ∧
      g = { f with answers :=
        f.answers ++ [(door.ask f.guard.limiter.config q input.1 input.2).2] } := by
  unfold next at h
  split at h
  · cases h
  · rename_i q next hcourse
    split at h
    · cases h
    · rename_i hle
      cases h
      exact ⟨q, next, hcourse, Int.not_lt.mp hle, rfl, rfl⟩

theorem underway_next (hunder : front.Underway f) (h : front.next door f input = some (door', g)) :
    front.Underway g := by
  obtain ⟨q, next, hcourse, -, -, rfl⟩ := next_cases h
  cases hunder with
  | refused resp left => cases left.symm.trans hcourse
  | admitted rest made all left =>
    cases rest with
    | nil => cases left.symm.trans hcourse
    | cons q' rest =>
      have hq : q' = q := by
        rw [left] at hcourse
        exact (Course.check.inj hcourse).1
      subst hq
      generalize hasked : (door.ask f.guard.limiter.config q' input.1 input.2).2 = a
      have hquery : a.query = q' := by
        rw [← hasked]
        rfl
      rcases gate_answer f.guard q' rest (front.entry f) a with ⟨hadmitted, hanswer⟩ | ⟨resp, hresp⟩
      · refine .admitted rest ?_ ?_ ?_
        · change front.queries f = _
          rw [made, List.map_append, List.append_assoc, List.map_singleton, hquery]
          rfl
        · intro b hb
          rcases List.mem_append.mp hb with hb | hb
          · exact all b hb
          · rw [List.mem_singleton.mp hb]
            exact hadmitted
        · rw [course_append, left]
          exact hanswer
      · refine .refused resp ?_
        rw [course_append, left]
        exact hresp

/-- A request that is with its handler has passed all its checks. -/
theorem Underway.of_reached (hunder : front.Underway f) (h : front.Reached f u) :
    f.answers.map (·.query) = front.queries f ∧ (∀ a ∈ f.answers, a.Admitted f.guard) ∧
      front.entry f = .handled u := by
  cases hunder with
  | refused resp left => cases left.symm.trans h
  | admitted rest made all left =>
    cases rest with
    | nil =>
      rw [List.append_nil] at made
      have hentry := left.symm.trans h
      exact ⟨made.symm, all, Course.done.inj hentry⟩
    | cons q rest => cases left.symm.trans h

/-- The handler sees the bytes that the middleware has counted. -/
theorem body_of_reached (hunder : front.Underway f) (h : front.Reached f u)
    (hget : f.request.isGetOrHead = false) (havailable : f.guard.limiter.isAvailable = true)
    (hemail : f.guard.emailMaxRequests.isSome = true) :
    f.request.body = .ok u.cachedBody ∧ u.request.headers = f.request.headers := by
  obtain ⟨-, -, hentry⟩ := hunder.of_reached h
  simp only [entry, RateLimitGuard.entry, havailable, hemail, Bool.and_self, if_true] at hentry
  split at hentry
  · cases hentry
  · rename_i bytes hbody
    unfold Served.ofEntry at hentry
    split at hentry
    · cases hentry
    · rename_i u' hok
      cases hentry
      obtain ⟨hheaders, hbytes⟩ := Adapters.handOver_ok hok hget
      exact ⟨by rw [hbytes bytes rfl, hbody], hheaders⟩

end Front

end

end RateLimit

end Webshelf
