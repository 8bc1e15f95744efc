import Webshelf.Adapters.EmailLimit
import Webshelf.Text

/-!
# The request of the two web adapters

What the middlewares and the handlers read of a request, and how either adapter
hands it to a handler: with a body that has been read before.
-/

namespace Webshelf.Adapters

/-- `HeaderMap::get`; the names it is asked for are in lower case. -/
def HeaderMap.get (headers : HeaderMap) (name : String) : Option HeaderValue :=
  (headers.find? fun h => h.1.text == name).map (·.2)

/-- `HeaderValue::to_str`: visible ASCII, spaces and tabs. A value whose bytes are no text has
a byte outside ASCII as well. -/
def HeaderValue.toStr (value : HeaderValue) : Option String :=
  if value.text.toList.all fun c => (32 ≤ c.toNat && c.toNat < 127) || c == '\t' then
    some value.text
  else none

structure Request where
  method : String
  path : String
  headers : HeaderMap := []
  /-- The address of the peer, where the server knows it. -/
  peerIp : Option String := none
  /-- What reading the body ends in. -/
  body : Except String Bytes := .ok []

namespace Request

/-- `header` of either adapter. -/
def header (req : Request) (name : String) : Option String :=
  (req.headers.get name).bind HeaderValue.toStr

/-- `str::trim`, and whether anything is left. -/
def trimmed (text : List Char) : Option String :=
  match Webshelf.trim text with
  | [] => none
  | c :: cs => some (.ofList (c :: cs))

/-- `extract_client_ip` of both middlewares. -/
def extractClientIp (req : Request) : Option String :=
  (req.header "x-forwarded-for").bind (fun value => trimmed (value.toList.takeWhile (· != ',')))
    <|> (req.header "x-real-ip").bind fun value => trimmed value.toList

/-- The address that a request is counted under. -/
def clientIp (req : Request) : Option String := req.extractClientIp <|> req.peerIp

def isGetOrHead (req : Request) : Bool := req.method == "GET" || req.method == "HEAD"

end Request

/-! ## What a handler is given -/

/-- `UnifiedRequest`. -/
structure UnifiedRequest where
  request : Request
  cachedBody : Bytes

namespace UnifiedRequest

/-- The content type that `parse_json_or_form` goes by. -/
def contentType (req : UnifiedRequest) : Option String := req.request.header "content-type"

end UnifiedRequest

/-- The body of an error of the middlewares. -/
def errorResponse (status : StatusCode) (error message : String) : Response :=
  { status, body := .json (.object [("error", .string error), ("message", .string message)]) }

/-- `FromRequest::from_request` of the Axum adapter. -/
def UnifiedRequest.fromRequest (req : Request) : Except Response UnifiedRequest :=
  if req.isGetOrHead then .ok ⟨req, []⟩
  else match req.body with
    | .ok bytes => .ok ⟨req, bytes⟩
    | .error e => .error (errorResponse 400 "bad_request" e)

/-- The request of Salvo, with what a middleware has put in the `Depot`. -/
structure DepotRequest where
  request : Request
  cachedBody : Option Bytes := none

/-- `UnifiedHandler::handle` up to the call of the handler. -/
def UnifiedRequest.handle (req : DepotRequest) : Except Response UnifiedRequest :=
  if req.request.isGetOrHead then .ok ⟨req.request, []⟩
  else match req.cachedBody with
    | some bytes => .ok ⟨req.request, bytes⟩
    | none => match req.request.body with
      | .ok bytes => .ok ⟨req.request, bytes⟩
      | .error _ => .error (errorResponse 400 "bad_request" "Failed to read request body")

inductive Adapter where
  | axum
  | salvo

/-- How the handler gets its request, after the middleware has read the body or has not: Axum
builds the request anew from the bytes, Salvo finds them in the `Depot`. -/
def Adapter.handOver (adapter : Adapter) (req : Request) (cachedBody : Option Bytes) :
    Except Response UnifiedRequest :=
  match adapter, cachedBody with
  | .axum, none => UnifiedRequest.fromRequest req
  | .axum, some bytes => UnifiedRequest.fromRequest { req with body := .ok bytes }
  | .salvo, cachedBody => UnifiedRequest.handle ⟨req, cachedBody⟩

/-- Whichever way it is handed over, a request keeps its headers, and a body its bytes. -/
theorem handOver_ok {adapter : Adapter} {req : Request} {u : UnifiedRequest}
    {cachedBody : Option Bytes} (h : adapter.handOver req cachedBody = .ok u)
    (hget : req.isGetOrHead = false) :
    u.request.headers = req.headers ∧ ∀ bytes, cachedBody = some bytes → u.cachedBody = bytes := by
  cases adapter with
  | axum =>
    cases cachedBody with
    | none =>
      simp only [Adapter.handOver, UnifiedRequest.fromRequest, hget, Bool.false_eq_true,
        if_false] at h
      split at h <;> cases h
      exact ⟨rfl, nofun⟩
    | some bytes =>
      have hget' : Request.isGetOrHead { req with body := .ok bytes } = false := hget
      simp only [Adapter.handOver, UnifiedRequest.fromRequest, hget', Bool.false_eq_true,
        if_false] at h
      cases h
      refine ⟨rfl, ?_⟩
      rintro _ ⟨⟩
      rfl
  | salvo =>
    simp only [Adapter.handOver, UnifiedRequest.handle, hget, Bool.false_eq_true, if_false] at h
    cases cachedBody with
    | none =>
      dsimp only at h
      split at h <;> cases h
      exact ⟨rfl, nofun⟩
    | some bytes =>
      cases h
      refine ⟨rfl, ?_⟩
      rintro _ ⟨⟩
      rfl

end Webshelf.Adapters
