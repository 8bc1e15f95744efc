import Webshelf.Client.Retry
import Webshelf.Lib.Threads

/-!
# The session of the web client

`auth/state.rs`: one `AuthState`, whose calls run in one thread of the browser and give way to
each other only where they await an answer or a timer. A call is between two awaits of its
function; a step resumes it and runs it up to the next one.
-/

namespace Webshelf

namespace Web

/-- `JWT_EXPIRY_LEEWAY_SECS` -/
def jwtExpiryLeewaySecs : Nat := 5

structure CurrentUser where
  id : String
  role : String
  name : String
  email : String
  balance : Int
  deriving DecidableEq

structure JwtPayload where
  sub : String
  exp : Nat
  iat : Nat
  role : String
  deriving DecidableEq

structure LoginResponse where
  token : String
  expiresIn : Nat
  refreshExpiresIn : Option Nat
  deriving DecidableEq

structure RefreshResponse where
  token : String
  expiresIn : Nat
  refreshExpiresIn : Nat
  deriving DecidableEq

structure UserResponse where
  id : String
  email : String
  name : String
  role : String
  balance : Int
  deriving DecidableEq

/-- `is_auth_failure` -/
def isAuthFailure : ClientError → Bool
  | .other 401 _ | .other 403 _ => true
  | _ => false

namespace CurrentUser

def fromJwt (payload : JwtPayload) : Option CurrentUser :=
  if payload.sub.isEmpty then none else some ⟨payload.sub, payload.role, "", "", 0⟩

/-- The user that `get_me` has answered with. -/
def ofProfile (profile : UserResponse) : CurrentUser :=
  ⟨profile.id, profile.role, profile.name, profile.email, profile.balance⟩

end CurrentUser

/-- `decode_payload`: the payload of a JWT, unverified. -/
abbrev Decode : Type := String → Option JwtPayload

def parseToken (decode : Decode) (token : String) : Option (JwtPayload × CurrentUser) :=
  (decode token).bind fun payload => (CurrentUser.fromJwt payload).map fun user => (payload, user)

/-- The signals, the token of the client, and what the browser keeps. -/
structure AuthState where
  token : Option String := none
  user : Option CurrentUser := none
  tokenExpiresAt : Option Nat := none
  initialized : Bool := false
  refreshing : Bool := false
  /-- `webshelf_jwt` in the session storage. -/
  sessionJwt : Option String := none
  /-- The cookie `webshelf_exp`. -/
  expCookie : Option Nat := none
  nowUnixSecs : Nat := 0
  /-- History: how the refreshes that have ended came out. -/
  results : List Bool := []

namespace AuthState

def saveJwt (s : AuthState) (token : String) : AuthState := { s with sessionJwt := some token }

def saveToken (s : AuthState) (expiresAt maxAge : Nat) : AuthState :=
  { s with expCookie := if maxAge = 0 then none else some expiresAt }

/-- `auth::clear_token` -/
def clearStorage (s : AuthState) : AuthState := { s with sessionJwt := none, expCookie := none }

def logout (s : AuthState) : AuthState :=
  { s with token := none, user := none, tokenExpiresAt := none }.clearStorage

/-- A JWT that expires at `exp` has expired, or will within the leeway. -/
def expired (s : AuthState) (exp : Nat) : Bool := exp ≤ s.nowUnixSecs + jwtExpiryLeewaySecs

def swapToken (decode : Decode) (s : AuthState) (newToken : String) : AuthState :=
  match parseToken decode newToken with
  | none => s.logout
  | some (payload, _) =>
    if s.expired payload.exp then s.logout
    else
      let s := { s with token := some newToken, tokenExpiresAt := some payload.exp }
      if s.expCookie.isSome then
        (s.saveJwt newToken).saveToken payload.exp (payload.exp - s.nowUnixSecs)
      else s.clearStorage

end AuthState

/-- Which function is called. -/
inductive Entry
  | login
  | restoreFromStorageAsync
  | tryRefreshAsync
  | swapToken (newToken : String)
  | logout
  | logoutAsync
  deriving DecidableEq

/-- Where `try_refresh_async` is called from: `restore_from_storage_async` calls it for a JWT
that has expired, and once more if `get_me` fails. -/
inductive Caller
  | itself
  | restore (expiresAt : Nat)
  | restoreAgain
  deriving DecidableEq

inductive TryRefresh
  /-- The POST is in flight. -/
  | posted
  /-- Asleep for the `round`-th time. `awaited` is history: the number of the refresh that was
  found in progress. -/
  | waiting (round awaited : Nat)
  deriving DecidableEq

inductive WebResult
  | unit
  | login (r : Except ClientError LoginResponse)
  /-- What `try_refresh_async` returns; `ended` is history: the refresh it has waited for, if
  it stopped waiting because no refresh was in progress any more. -/
  | refreshed (r : Bool) (ended : Option Nat)

/-- Where a call is. -/
inductive WebCall
  | entry (e : Entry)
  /-- The POST of `login` is in flight. -/
  | loginPosted
  | loginGetMe (resp : LoginResponse)
  | restoreGetMe (expiresAt : Nat)
  | restoreGetMeAgain
  | tryRefresh (caller : Caller) (phase : TryRefresh)
  /-- The POST of `logout` is in flight. -/
  | logoutPosted
  | finished (r : WebResult)

/-- What a call is resumed with. -/
inductive WebInput
  /-- The first time it runs. -/
  | run
  | login (r : Except ClientError LoginResponse)
  | getMe (r : Except ClientError UserResponse)
  | refresh (r : Except ClientError RefreshResponse)
  | logout (r : Except ClientError String)
  /-- The timer has fired. -/
  | woken

namespace AuthState

/-- `try_refresh_async` up to its first await. -/
def tryRefresh (s : AuthState) (caller : Caller) : AuthState × WebCall :=
  if s.refreshing then (s, .tryRefresh caller (.waiting 0 s.results.length))
  else ({ s with refreshing := true }, .tryRefresh caller .posted)

/-- The caller goes on after `try_refresh_async` has returned `r`. -/
def afterRefresh (s : AuthState) (r : Bool) (ended : Option Nat) : Caller → AuthState × WebCall
  | .itself => (s, .finished (.refreshed r ended))
  | .restore expiresAt =>
    if r then (s, .restoreGetMe expiresAt)
    else ({ s.clearStorage with initialized := true }, .finished .unit)
  | .restoreAgain =>
    if r then (s, .restoreGetMeAgain)
    else ({ s.logout with initialized := true }, .finished .unit)

/-- The answer to the POST. -/
def refreshAnswered (s : AuthState) : Except ClientError RefreshResponse → AuthState
  | .ok resp =>
    let expiresAt := s.nowUnixSecs + resp.expiresIn
    let s := { s with token := some resp.token, tokenExpiresAt := some expiresAt }
    let s := (s.saveJwt resp.token).saveToken expiresAt (max resp.refreshExpiresIn resp.expiresIn)
    { s with refreshing := false, results := s.results ++ [true] }
  | .error _ => { s with refreshing := false, results := s.results ++ [false] }

/-- What a call that has waited returns once no refresh is in progress. -/
def fresh (s : AuthState) : Bool := s.tokenExpiresAt.any fun exp => !s.expired exp

/-- A call wakes up. -/
def wake (s : AuthState) (caller : Caller) (round awaited : Nat) : AuthState × WebCall :=
  if !s.refreshing then s.afterRefresh s.fresh (some awaited) caller
  else if round + 1 < 60 then (s, .tryRefresh caller (.waiting (round + 1) awaited))
  else s.afterRefresh false none caller

/-- `restore_from_storage_async` up to its first await. -/
def restore (s : AuthState) : AuthState × WebCall :=
  let s := { s with token := s.sessionJwt.orElse fun _ => s.token }
  match s.expCookie with
  | none => ({ s with initialized := true }, .finished .unit)
  | some expiresAt =>
    if s.expired expiresAt then s.tryRefresh (.restore expiresAt)
    else ({ s with tokenExpiresAt := some expiresAt }, .restoreGetMe expiresAt)

def restoreAnswered (s : AuthState) (expiresAt : Nat) :
    Except ClientError UserResponse → AuthState × WebCall
  | .ok profile =>
    ({ s with user := some (.ofProfile profile), initialized := true }, .finished .unit)
  | .error err =>
    if isAuthFailure err then s.tryRefresh .restoreAgain
    else ({ s with tokenExpiresAt := some expiresAt, initialized := true }, .finished .unit)

def restoreAnsweredAgain (decode : Decode) (s : AuthState) :
    Except ClientError UserResponse → AuthState
  | .ok profile => { s with user := some (.ofProfile profile), initialized := true }
  | .error err =>
    if isAuthFailure err then { s.logout with initialized := true }
    else
      let user := match s.token.bind (parseToken decode) with
        | some (_, user) => some user
        | none => s.user
      { s with user := user, initialized := true }

def loginAnswered (s : AuthState) (resp : LoginResponse) : AuthState :=
  let expiresAt := s.nowUnixSecs + resp.expiresIn
  let s := { s with token := some resp.token, tokenExpiresAt := some expiresAt }
  (s.saveJwt resp.token).saveToken expiresAt (max (resp.refreshExpiresIn.getD 0) resp.expiresIn)

def loginGotMe (s : AuthState) (resp : LoginResponse) :
    Except ClientError UserResponse → AuthState × WebCall
  | .ok profile =>
    ({ s with user := some (.ofProfile profile) }, .finished (.login (.ok resp)))
  | .error err =>
    if isAuthFailure err then (s.logout, .finished (.login (.error err)))
    else (s, .finished (.login (.ok resp)))

/-- The functions up to their first await. -/
def enter (decode : Decode) (s : AuthState) : Entry → AuthState × WebCall
  | .login => (s, .loginPosted)
  | .restoreFromStorageAsync => s.restore
  | .tryRefreshAsync => s.tryRefresh .itself
  | .swapToken newToken => (s.swapToken decode newToken, .finished .unit)
  | .logout => (s.logout, .finished .unit)
  | .logoutAsync => (s, .logoutPosted)

/-- A call is resumed. -/
def resume (decode : Decode) (s : AuthState) : WebCall → WebInput → Option (AuthState × WebCall)
  | .entry e, .run => some (s.enter decode e)
  | .loginPosted, .login (.ok resp) => some (s.loginAnswered resp, .loginGetMe resp)
  | .loginPosted, .login (.error err) => some (s, .finished (.login (.error err)))
  | .loginGetMe resp, .getMe r => some (s.loginGotMe resp r)
  | .restoreGetMe expiresAt, .getMe r => some (s.restoreAnswered expiresAt r)
  | .restoreGetMeAgain, .getMe r => some (s.restoreAnsweredAgain decode r, .finished .unit)
  | .tryRefresh caller .posted, .refresh r =>
    some ((s.refreshAnswered r).afterRefresh r.isOk none caller)
  | .tryRefresh caller (.waiting round awaited), .woken => some (s.wake caller round awaited)
  -- the error of the backend is swallowed
  | .logoutPosted, .logout _ => some (s.logout, .finished .unit)
  | _, _ => none

end AuthState

/-- What the browser does on its own: time passes, and the server's cookies arrive and expire. -/
inductive WebEvent
  | clock (now : Nat)
  | cookie (expCookie : Option Nat)

def AuthState.surround (s : AuthState) : WebEvent → AuthState
  | .clock now => { s with nowUnixSecs := now }
  | .cookie expCookie => { s with expCookie := expCookie }

/-- Any number of calls on one `AuthState`. -/
def web (decode : Decode) : Threads.Program AuthState WebCall WebInput WebEvent where
  initial
    | .entry _ => true
    | _ => false
  next _ s call input := s.resume decode call input
  surround s e := some (s.surround e)

abbrev WebState : Type := Threads.State AuthState WebCall

abbrev WebLabel : Type := Threads.Label WebCall WebInput WebEvent

end Web

end Webshelf
