import Webshelf.Adapters.Request
import Webshelf.Services.Basic

/-!
# Authentication of a request

The middleware of either adapter takes a JWT from the request, has it decoded,
and waits for `check_token_version` before it passes the request on with the
user that the claims name. `validate` is `validate_jwt`, the decoding of
`jsonwebtoken` with its checks; `parseCookie` is `Cookie::parse`.
-/

namespace Webshelf

namespace Adapters

/-- `JwtClaims` as it stands in a token. -/
structure WireClaims where
  sub : String
  exp : Nat
  iat : Nat
  iss : String
  aud : String
  role : String
  tokenVersion : Int
  remember : Bool
  deriving DecidableEq

structure AuthUser where
  userId : String
  role : String
  exp : Nat
  iat : Nat
  tokenVersion : Int
  remember : Bool
  deriving DecidableEq

/-- `impl From<JwtClaims> for AuthUser`. -/
def AuthUser.ofClaims (claims : WireClaims) : AuthUser where
  userId := claims.sub
  role := claims.role
  exp := claims.exp
  iat := claims.iat
  tokenVersion := claims.tokenVersion
  remember := claims.remember

/-- One or more decimal digits. -/
def parseDigits (text : List Char) : Option Nat :=
  if text ≠ [] ∧ text.all Char.isDigit then some (Nat.ofDigitChars 10 text 0) else none

/-- With an optional sign. -/
def parseSigned : List Char → Option Int
  | '-' :: digits => (parseDigits digits).map fun n => -Int.ofNat n
  | '+' :: digits => (parseDigits digits).map Int.ofNat
  | digits => (parseDigits digits).map Int.ofNat

/-- `str::parse::<i64>`. -/
def parseI64 (text : String) : Option Int :=
  (parseSigned text.toList).filter fun n =>
    decide (Int64.minValue.toInt ≤ n ∧ n ≤ Int64.maxValue.toInt)

theorem parseDigits_repr (n : Nat) : parseDigits n.repr.toList = some n := by
  have hne : n.repr.toList ≠ [] := by
    intro h
    exact Nat.repr_ne_empty (String.toList_inj.mp h)
  have hall : n.repr.toList.all Char.isDigit = true := by
    rw [List.all_eq_true, Nat.toList_repr]
    intro c hc
    exact Nat.isDigit_of_mem_toDigits (by decide) (by decide) hc
  rw [parseDigits, if_pos ⟨hne, hall⟩, Nat.toList_repr, Nat.ofDigitChars_ten_toDigits]

/-- Digits have no sign. -/
theorem parseSigned_digits {text : List Char} {n : Nat} (h : parseDigits text = some n) :
    parseSigned text = some (Int.ofNat n) := by
  have hall : ∀ c ∈ text, c.isDigit = true := by
    unfold parseDigits at h
    split at h
    · rename_i hdigits
      exact List.all_eq_true.mp hdigits.2
    · cases h
  unfold parseSigned
  split
  · exact absurd (hall '-' List.mem_cons_self) (by decide)
  · exact absurd (hall '+' List.mem_cons_self) (by decide)
  · rw [h, Option.map_some]

/-- A number written out is read as itself, if it is in range. -/
theorem parseI64_toString {n m : Int} (h : parseI64 (toString n) = some m) : m = n := by
  obtain ⟨h, -⟩ := Option.filter_eq_some_iff.mp h
  rw [Int.toString_eq_repr, Int.repr_eq_if] at h
  split at h
  · rename_i hn
    cases (parseSigned_digits (parseDigits_repr _)).symm.trans h
    exact Int.toNat_of_nonneg hn
  · rename_i hn
    have hminus : ("-" ++ (-n).toNat.repr).toList = '-' :: (-n).toNat.repr.toList :=
      String.toList_append
    rw [hminus, parseSigned, parseDigits_repr, Option.map_some] at h
    have hnat : Int.ofNat (-n).toNat = -n := Int.toNat_of_nonneg (by omega)
    rw [hnat] at h
    cases h
    omega

/-- The claims of `generate_token`, as they are encoded. -/
def WireClaims.ofToken (token : JwtClaims) : WireClaims where
  sub := toString token.sub
  exp := (token.exp / 1000000).toNat
  iat := (token.iat / 1000000).toNat
  iss := "webshelf-server"
  aud := "webshelf"
  role := token.role
  tokenVersion := token.tokenVersion
  remember := token.remember

/-! ## The middlewares -/

def unauthorizedResponse (message : String) : Response :=
  errorResponse 401 "unauthorized" message

def forbiddenResponse (message : String) : Response := errorResponse 403 "forbidden" message

/-- `extract_bearer_token`; the value is ASCII, a character a byte. -/
def extractBearerToken (req : Request) : Option String :=
  (req.header "authorization").bind fun value =>
    if value.toList.length ≤ 7 then none
    else if !eqIgnoreAsciiCase (.ofList (value.toList.take 7)) "bearer " then none
    else some (.ofList (value.toList.drop 7))

section
variable (parseCookie : List Char → Option (String × String))
  (validate : String → Except String WireClaims)

/-- `extract_jwt_cookie`. -/
def extractJwtCookie (req : Request) : Option String :=
  (req.header "cookie").bind fun value =>
    (((value.toList.splitOn ';').map Webshelf.trim).filterMap parseCookie).find?
      (·.1 == "webshelf_jwt") |>.map (·.2)

/-- What becomes of a request: an answer, or the next handler with the user it has been
authenticated as. -/
inductive Authenticated where
  | answered (resp : Response)
  | passed (user : Option AuthUser)

/-- A middleware up to the call of `check_token_version`, and what it does with the answer. -/
inductive Authentication where
  | done (result : Authenticated)
  | checkTokenVersion (userId : UserId) (claims : WireClaims)

/-- What both middlewares do for a request that is not exempt. -/
def authenticate (req : Request) : Authentication :=
  match extractBearerToken req <|> extractJwtCookie parseCookie req with
  | none => .done (.answered (unauthorizedResponse "Missing or invalid Authorization header"))
  | some token => match validate token with
    | .error _ => .done (.answered (unauthorizedResponse "Invalid or expired token"))
    | .ok claims => match parseI64 claims.sub with
      | none => .done (.answered (unauthorizedResponse "Invalid or expired token"))
      | some userId => .checkTokenVersion userId claims

def isHealthPath (path : String) : Bool := path == "/health" || path == "/api/health"

/-- `auth_middleware` of Axum. -/
def authMiddleware (req : Request) : Authentication :=
  if isHealthPath req.path then .done (.passed none)
  else authenticate parseCookie validate req

/-- `AuthMiddleware::handle` of Salvo, which looks for the state in the `Depot`. -/
def AuthMiddleware.handle (stateFound : Bool) (req : Request) : Authentication :=
  if isHealthPath req.path then .done (.passed none)
  else if !stateFound then
    .done (.answered (errorResponse 500 "internal_error" "An unexpected error occurred"))
  else authenticate parseCookie validate req

end

/-- The middleware of the adapter. -/
def Adapter.authenticate (adapter : Adapter) (parseCookie : List Char → Option (String × String))
    (validate : String → Except String WireClaims) (stateFound : Bool) (req : Request) :
    Authentication :=
  match adapter with
  | .axum => authMiddleware parseCookie validate req
  | .salvo => AuthMiddleware.handle parseCookie validate stateFound req

/-- After `check_token_version`. -/
def Authenticated.ofCheck (claims : WireClaims) (ok : Bool) : Authenticated :=
  if ok then .passed (some (.ofClaims claims))
  else .answered (unauthorizedResponse "Invalid or expired token")

/-- `require_admin` of Axum and `RequireAdmin` of Salvo. -/
def requireAdmin (user : Option AuthUser) : Authenticated :=
  match user with
  | none => .answered (unauthorizedResponse "Authentication required")
  | some user =>
    if user.role != "admin" && user.role != "system" then
      .answered (forbiddenResponse "Admin privileges required")
    else .passed (some user)

/-! ## The routes -/

inductive Segment where
  | text (s : String)
  | param
  deriving DecidableEq

/-- A route of `api_routes`, and whether it stands behind the admin guard. -/
structure ApiRoute where
  method : String
  pattern : List Segment
  admin : Bool
  deriving DecidableEq

def apiRoutes : List ApiRoute :=
  let users := Segment.text "users"
  let me := Segment.text "me"
  [⟨"GET", [.text "health"], false⟩,
   ⟨"GET", [users, me], false⟩,
   ⟨"POST", [users, me, .text "password"], false⟩,
   ⟨"POST", [users, me, .text "logout-all"], false⟩,
   ⟨"GET", [users], true⟩,
   ⟨"POST", [users], true⟩,
   ⟨"GET", [users, .param], true⟩,
   ⟨"PUT", [users, .param], true⟩,
   ⟨"DELETE", [users, .param], true⟩,
   ⟨"PUT", [users, .param, .text "balance"], true⟩,
   ⟨"POST", [users, .param, .text "balance", .text "adjust"], true⟩]

def Segment.matches : Segment → List Char → Bool
  | .text s, part => part == s.toList
  | .param, part => !part.isEmpty

/-- The segments of the pattern are those of the path, one by one. -/
def matchSegments : List Segment → List (List Char) → Bool
  | [], [] => true
  | s :: ss, part :: parts => s.matches part && matchSegments ss parts
  | _, _ => false

/-- How the routers of `axum` and `salvo` match a request. A health path they match with the
health check only. -/
structure ApiRouter where
  accepts : Adapter → ApiRoute → Request → Bool
  health : ∀ adapter, ∀ route ∈ apiRoutes, ∀ req, accepts adapter route req = true →
    isHealthPath req.path = true → route = ⟨"GET", [.text "health"], false⟩

/-- The path that the middlewares of a route see is without the `/api` of `nest` in Axum, with
it in Salvo. -/
def seesStripped : Adapter → Bool
  | .axum => true
  | .salvo => false

/-- A path without empty segments is matched with the pattern segment by segment. -/
def ApiRoute.matches (route : ApiRoute) (stripped : Bool) (req : Request) : Bool :=
  req.method == route.method &&
    match req.path.toList.splitOn '/' with
    | [] :: parts =>
      matchSegments (if stripped then route.pattern else .text "api" :: route.pattern) parts
    | _ => false

theorem health_of_path {route : ApiRoute} {stripped : Bool} {req : Request}
    (hroute : route ∈ apiRoutes) (hmatch : route.matches stripped req = true)
    (hpath : isHealthPath req.path = true) : route = ⟨"GET", [.text "health"], false⟩ := by
  obtain ⟨-, hsegments⟩ := (Bool.and_eq_true _ _).mp hmatch
  have hmem : req.path ∈ ["/health", "/api/health"] := by
    simpa [isHealthPath] using hpath
  have honly : ∀ path ∈ ["/health", "/api/health"], ∀ route ∈ apiRoutes, ∀ stripped : Bool,
      (match (String.toList path).splitOn '/' with
        | [] :: parts =>
          matchSegments (if stripped then route.pattern else .text "api" :: route.pattern) parts
        | _ => false) = true → route = ⟨"GET", [.text "health"], false⟩ := by
    decide
  exact honly req.path hmem route hroute stripped hsegments

/-- A router that matches no more than that. -/
def ApiRouter.bySegments : ApiRouter where
  accepts adapter route req := route.matches (seesStripped adapter) req
  health _ _ hroute _ hmatch hpath := health_of_path hroute hmatch hpath

section
variable {parseCookie : List Char → Option (String × String)}
  {validate : String → Except String WireClaims} {req : Request} {userId : UserId}
  {claims : WireClaims} {user : Option AuthUser} {adapter : Adapter} {stateFound : Bool}

/-- The token of the request has been decoded to the claims, which name the user. -/
def Presents (parseCookie : List Char → Option (String × String))
    (validate : String → Except String WireClaims) (req : Request) (userId : UserId)
    (claims : WireClaims) : Prop :=
  ∃ token, (extractBearerToken req <|> extractJwtCookie parseCookie req) = some token ∧
    validate token = .ok claims ∧ parseI64 claims.sub = some userId

theorem authenticate_cases :
    (∃ resp, authenticate parseCookie validate req = .done (.answered resp)) ∨
      ∃ userId claims, authenticate parseCookie validate req = .checkTokenVersion userId claims ∧
        Presents parseCookie validate req userId claims := by
  unfold authenticate
  split
  · exact .inl ⟨_, rfl⟩
  · rename_i token htoken
    split
    · exact .inl ⟨_, rfl⟩
    · rename_i claims hvalid
      split
      · exact .inl ⟨_, rfl⟩
      · rename_i userId hparse
        exact .inr ⟨userId, claims, rfl, token, htoken, hvalid, hparse⟩

/-- Without a check of its token only the health path is passed on. -/
theorem Adapter.authenticate_done {result : Authenticated}
    (h : adapter.authenticate parseCookie validate stateFound req = .done result) :
    (∃ resp, result = .answered resp) ∨ isHealthPath req.path = true ∧ result = .passed none := by
  have hrest (h : Adapters.authenticate parseCookie validate req = .done result) :
      ∃ resp, result = .answered resp := by
    rcases @authenticate_cases parseCookie validate req with ⟨resp, hresp⟩ | ⟨_, _, hcheck, -⟩
    · cases hresp.symm.trans h
      exact ⟨resp, rfl⟩
    · cases hcheck.symm.trans h
  cases adapter with
  | axum =>
    simp only [Adapter.authenticate, authMiddleware] at h
    split at h
    · rename_i hhealth
      cases h
      exact .inr ⟨hhealth, rfl⟩
    · exact .inl (hrest h)
  | salvo =>
    simp only [Adapter.authenticate, AuthMiddleware.handle] at h
    split at h
    · rename_i hhealth
      cases h
      exact .inr ⟨hhealth, rfl⟩
    · split at h
      · cases h
        exact .inl ⟨_, rfl⟩
      · exact .inl (hrest h)

theorem Adapter.authenticate_check
    (h : adapter.authenticate parseCookie validate stateFound req =
      .checkTokenVersion userId claims) : Presents parseCookie validate req userId claims := by
  have hrest (h : Adapters.authenticate parseCookie validate req =
      .checkTokenVersion userId claims) : Presents parseCookie validate req userId claims := by
    rcases @authenticate_cases parseCookie validate req with ⟨resp, hresp⟩ | ⟨_, _, hcheck, hp⟩
    · cases hresp.symm.trans h
    · cases hcheck.symm.trans h
      exact hp
  cases adapter with
  | axum =>
    simp only [Adapter.authenticate, authMiddleware] at h
    split at h
    · cases h
    · exact hrest h
  | salvo =>
    simp only [Adapter.authenticate, AuthMiddleware.handle] at h
    split at h
    · cases h
    · split at h
      · cases h
      · exact hrest h

/-- Who passes the admin guard is an admin, or the system. -/
theorem role_of_requireAdmin {user' : Option AuthUser} (h : requireAdmin user = .passed user') :
    user' = user ∧ ∃ u, user = some u ∧ (u.role = "admin" ∨ u.role = "system") := by
  unfold requireAdmin at h
  split at h
  · cases h
  · rename_i u
    split at h
    · cases h
    · rename_i hrole
      cases h
      refine ⟨rfl, u, rfl, ?_⟩
      by_contra hno
      obtain ⟨hadmin, hsystem⟩ := not_or.mp hno
      exact hrole (by simp [hadmin, hsystem])

end

end Adapters

end Webshelf
