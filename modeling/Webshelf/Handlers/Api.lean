import Webshelf.Adapters.Authentication
import Webshelf.Handlers.Auth

/-!
# The handlers of `handlers/api.rs`

Each handler reads its user from the request, the id from the path and its body,
checks them in this order, and makes one call of a service with the role of the
user. `register` makes the same call as `create_user`, for nobody.
-/

namespace Webshelf

open Adapters (ApiRoute AuthUser Segment UnifiedRequest parseI64)

/-! ## Bodies -/

structure CreateUserRequest where
  email : String
  password : String
  name : String
  role : Option String := none

structure UpdateUserRequest where
  email : Option String := none
  name : Option String := none
  role : Option String := none

structure ChangePasswordRequest where
  currentPassword : String
  newPassword : String

/-- `RegisterRequestBody`; nothing reads its `remember`. -/
structure RegisterRequestBody where
  email : String
  password : String
  name : String
  passwordConfirm : String := ""

/-- What serde makes of the bodies, and the percent-decoding of a segment of the path. -/
structure ApiCrates where
  decode : List Char → Option String
  createUser : UnifiedRequest → Except String CreateUserRequest
  updateUser : UnifiedRequest → Except String UpdateUserRequest
  changePassword : UnifiedRequest → Except String ChangePasswordRequest
  balance : UnifiedRequest → Except String Int64
  amount : UnifiedRequest → Except String Int64
  register : UnifiedRequest → Except String RegisterRequestBody

/-- `validate_role`. -/
def roleError (role : Option String) : List (String × String) :=
  fieldError "role" "role must be 'user' or 'admin'"
    (role.all fun role => role == "user" || role == "admin")

def nameError (name : String) : List (String × String) :=
  fieldError "name" "name must be between 6 and 50 characters"
    (decide (6 ≤ name.length ∧ name.length ≤ 50))

def newPasswordError (password : String) : List (String × String) :=
  fieldError "password" "password must be at least 8 characters" (decide (8 ≤ password.length))

/-- A check of a body whose errors are answered as bad requests. -/
def Validator.check (v : Validator) (errors : List (String × String)) : Except HttpError Unit :=
  (v.validate errors).mapError .badRequest

/-- `check_password_strength`. -/
def checkPasswordStrength (password : String) : Except HttpError Unit :=
  if validatePassword password = false then .error (.ofApi (.validation weakPasswordMessage))
  else .ok ()

/-! ## The handlers -/

inductive ApiHandler where
  | healthCheck
  | listUsers
  | createUser
  | getMe
  | changeMyPassword
  | logoutAll
  | getUser
  | updateUser
  | deleteUser
  | setBalance
  | adjustBalance
  deriving DecidableEq

/-- The handlers of `api_routes`. -/
def apiHandlers : List (ApiRoute × ApiHandler) :=
  let users := Segment.text "users"
  let me := Segment.text "me"
  [(⟨"GET", [.text "health"], false⟩, .healthCheck),
   (⟨"GET", [users, me], false⟩, .getMe),
   (⟨"POST", [users, me, .text "password"], false⟩, .changeMyPassword),
   (⟨"POST", [users, me, .text "logout-all"], false⟩, .logoutAll),
   (⟨"GET", [users], true⟩, .listUsers),
   (⟨"POST", [users], true⟩, .createUser),
   (⟨"GET", [users, .param], true⟩, .getUser),
   (⟨"PUT", [users, .param], true⟩, .updateUser),
   (⟨"DELETE", [users, .param], true⟩, .deleteUser),
   (⟨"PUT", [users, .param, .text "balance"], true⟩, .setBalance),
   (⟨"POST", [users, .param, .text "balance", .text "adjust"], true⟩, .adjustBalance)]

def Adapters.ApiRoute.handler (route : ApiRoute) : Option ApiHandler :=
  (apiHandlers.find? fun entry => decide (entry.1 = route)).map (·.2)

example : apiHandlers.map (·.1) = Adapters.apiRoutes := by decide

/-- The segment that stands where the pattern has its parameter. -/
def paramOf : List Segment → List (List Char) → Option (List Char)
  | .param :: _, part :: _ => some part
  | .text _ :: pattern, _ :: parts => paramOf pattern parts
  | _, _ => none

/-- The parameter `id` of a path that the route has matched. -/
def Adapters.ApiRoute.idParam (crates : ApiCrates) (route : ApiRoute) (stripped : Bool)
    (req : Adapters.Request) : Option String :=
  let pattern := if stripped then route.pattern else .text "api" :: route.pattern
  (paramOf pattern (req.path.toList.splitOn '/').tail).bind crates.decode

/-- The user of `extract_handler_context`. -/
def extractAuthUser (user : Option AuthUser) : Except HttpError AuthUser :=
  match user with
  | none => .error (.unauthorized "Authentication required")
  | some user => .ok user

/-- `req.parse_param("id")`. -/
def parseId (param : Option String) : Except HttpError UserId :=
  match param.bind parseI64 with
  | none => .error (.badRequest "Invalid or missing user ID")
  | some id => .ok id

/-- `auth_user.user_id.parse()`. -/
def Adapters.AuthUser.id (user : AuthUser) : Except HttpError UserId :=
  match parseI64 user.userId with
  | none => .error (.internal "An unexpected error occurred")
  | some id => .ok id

/-- Only the system gives roles. -/
def requestedRole (user : AuthUser) (role : Option String) : Option String :=
  if user.role = "system" then role else none

section
variable (crates : ApiCrates) (cfg : Settings) (v : Validator) (user : Option AuthUser)
  (param : Option String) (req : UnifiedRequest)

def createUserHandler : Except HttpError Call := do
  let user ← extractAuthUser user
  let payload ← (crates.createUser req).mapError .badRequest
  v.check (v.emailError payload.email ++ newPasswordError payload.password ++
    nameError payload.name ++ roleError payload.role)
  checkPasswordStrength payload.password
  return .createUser (.insert
    ⟨cfg.toLowercase payload.email, payload.password, payload.name,
      requestedRole user payload.role⟩ user.role)

def getMeHandler : Except HttpError Call := do
  let user ← extractAuthUser user
  let userId ← user.id
  return .getUser (.get userId none)

def changeMyPasswordHandler : Except HttpError Call := do
  let user ← extractAuthUser user
  let payload ← (crates.changePassword req).mapError .badRequest
  (v.validate (fieldError "current_password" "current password is required"
      (decide (1 ≤ payload.currentPassword.length)) ++
    fieldError "new_password" "new password is required"
      (decide (1 ≤ payload.newPassword.length)))).mapError fun e => .ofApi (.validation e)
  checkPasswordStrength payload.newPassword
  let userId ← user.id
  if payload.currentPassword = payload.newPassword then
    .error (.badRequest "New password must be different from current password")
  else return .changePassword (.find userId payload.currentPassword payload.newPassword
    user.remember)

def logoutAllHandler : Except HttpError Call := do
  let user ← extractAuthUser user
  let userId ← user.id
  return .revokeAll (.revoke userId)

def getUserHandler : Except HttpError Call := do
  let user ← extractAuthUser user
  let id ← parseId param
  return .getUser (.get id (some user.role))

def updateUserHandler : Except HttpError Call := do
  let user ← extractAuthUser user
  let id ← parseId param
  let payload ← (crates.updateUser req).mapError .badRequest
  v.check ((payload.email.elim [] v.emailError) ++ (payload.name.elim [] nameError) ++
    roleError payload.role)
  if payload.email = none ∧ payload.name = none ∧ payload.role = none then
    .error (.badRequest "At least one field (email, name, or role) must be provided")
  else return .updateUser (.find id
    ⟨payload.email, payload.name, requestedRole user payload.role⟩ user.role)

def deleteUserHandler : Except HttpError Call := do
  let user ← extractAuthUser user
  let id ← parseId param
  let actorId ← user.id
  return .deleteUser (.find id user.role actorId)

def setBalanceHandler : Except HttpError Call := do
  let user ← extractAuthUser user
  let id ← parseId param
  let balance ← (crates.balance req).mapError .badRequest
  return .modifyBalance (setBalance id balance user.role)

def adjustBalanceHandler : Except HttpError Call := do
  let user ← extractAuthUser user
  let id ← parseId param
  let amount ← (crates.amount req).mapError .badRequest
  return .modifyBalance (adjustBalance id amount user.role)

/-- The call of a handler; `none` where it makes none that writes. -/
def ApiHandler.call : ApiHandler → Except HttpError (Option Call)
  | healthCheck | listUsers => .ok none
  | createUser => some <$> createUserHandler crates cfg v user req
  | getMe => some <$> getMeHandler user
  | changeMyPassword => some <$> changeMyPasswordHandler crates v user req
  | logoutAll => some <$> logoutAllHandler user
  | getUser => some <$> getUserHandler user param
  | updateUser => some <$> updateUserHandler crates v user param req
  | deleteUser => some <$> deleteUserHandler user param
  | setBalance => some <$> setBalanceHandler crates user param req
  | adjustBalance => some <$> adjustBalanceHandler crates user param req

/-- `register`, up to its `create_user`. -/
def registerHandler : Except HttpError Call := do
  let payload ← (crates.register req).mapError .badRequest
  v.check (v.emailError payload.email ++ newPasswordError payload.password ++
    nameError payload.name)
  if payload.password ≠ payload.passwordConfirm then
    .error (.badRequest "passwords do not match")
  checkPasswordStrength payload.password
  return .createUser (.insert
    ⟨cfg.toLowercase payload.email, payload.password, payload.name, none⟩ "user")

end

/-! ## The calls they make -/

/-- The calls of a handler for this user, at this id in the path. -/
inductive ApiHandler.Makes (user : AuthUser) (param : Option String) : ApiHandler → Call → Prop
  | createUser {input : CreateUserInput}
      (role : user.role ≠ "system" → input.role = none) :
      Makes user param .createUser (.createUser (.insert input user.role))
  | getMe {id : UserId} : Makes user param .getMe (.getUser (.get id none))
  | changeMyPassword {id : UserId} {currentPassword newPassword : String}
      (self : parseI64 user.userId = some id) :
      Makes user param .changeMyPassword
        (.changePassword (.find id currentPassword newPassword user.remember))
  | logoutAll {id : UserId} (self : parseI64 user.userId = some id) :
      Makes user param .logoutAll (.revokeAll (.revoke id))
  | getUser {id : UserId} : Makes user param .getUser (.getUser (.get id (some user.role)))
  | updateUser {id : UserId} {input : UpdateUserInput} (target : param.bind parseI64 = some id)
      (role : user.role ≠ "system" → input.role = none) :
      Makes user param .updateUser (.updateUser (.find id input user.role))
  | deleteUser {id actorId : UserId} (target : param.bind parseI64 = some id)
      (self : parseI64 user.userId = some actorId) :
      Makes user param .deleteUser (.deleteUser (.find id user.role actorId))
  | setBalance {id : UserId} {balance : Int64} (target : param.bind parseI64 = some id) :
      Makes user param .setBalance (.modifyBalance (.lock id (.set balance) user.role))
  | adjustBalance {id : UserId} {amount : Int64} (target : param.bind parseI64 = some id) :
      Makes user param .adjustBalance (.modifyBalance (.lock id (.adjust amount) user.role))

theorem ok_of_bind {ε α β : Type} {x : Except ε α} {f : α → Except ε β} {b : β}
    (h : (x >>= f) = .ok b) : ∃ a, x = .ok a ∧ f a = .ok b := by
  cases x with
  | error e => cases h
  | ok a => exact ⟨a, rfl, h⟩

theorem ok_of_map {ε α : Type} {x : Except ε α} {b : α} (h : (some <$> x) = .ok (some b)) :
    x = .ok b := by
  cases x with
  | error e => cases h
  | ok a =>
    cases h
    rfl

section
variable {crates : ApiCrates} {cfg : Settings} {v : Validator} {user : Option AuthUser}
  {param : Option String} {req : UnifiedRequest} {handler : ApiHandler} {call : Call}
  {u : AuthUser} {id : UserId}

theorem user_of_extract (h : extractAuthUser user = .ok u) : user = some u := by
  cases user with
  | none => cases h
  | some user =>
    cases h
    rfl

theorem param_of_parseId (h : parseId param = .ok id) : param.bind parseI64 = some id := by
  unfold parseId at h
  split at h
  · cases h
  · rename_i hid
    cases h
    exact hid

theorem self_of_id (h : u.id = .ok id) : parseI64 u.userId = some id := by
  unfold Adapters.AuthUser.id at h
  split at h
  · cases h
  · rename_i hid
    cases h
    exact hid

theorem requestedRole_none {role : Option String} (h : u.role ≠ "system") :
    requestedRole u role = none := if_neg h

theorem ApiHandler.makes_of_call (h : handler.call crates cfg v user param req = .ok (some call)) :
    ∃ u, user = some u ∧ handler.Makes u param call := by
  cases handler with
  | healthCheck | listUsers => cases h
  | createUser =>
    obtain ⟨u, hu, h⟩ := ok_of_bind (ok_of_map h)
    obtain ⟨payload, -, h⟩ := ok_of_bind h
    obtain ⟨_, -, h⟩ := ok_of_bind h
    obtain ⟨_, -, h⟩ := ok_of_bind h
    cases h
    exact ⟨u, user_of_extract hu, .createUser requestedRole_none⟩
  | getMe =>
    obtain ⟨u, hu, h⟩ := ok_of_bind (ok_of_map h)
    obtain ⟨id, -, h⟩ := ok_of_bind h
    cases h
    exact ⟨u, user_of_extract hu, .getMe⟩
  | changeMyPassword =>
    obtain ⟨u, hu, h⟩ := ok_of_bind (ok_of_map h)
    obtain ⟨payload, -, h⟩ := ok_of_bind h
    obtain ⟨_, -, h⟩ := ok_of_bind h
    obtain ⟨_, -, h⟩ := ok_of_bind h
    obtain ⟨id, hself, h⟩ := ok_of_bind h
    split at h
    · cases h
    · cases h
      exact ⟨u, user_of_extract hu, .changeMyPassword (self_of_id hself)⟩
  | logoutAll =>
    obtain ⟨u, hu, h⟩ := ok_of_bind (ok_of_map h)
    obtain ⟨id, hself, h⟩ := ok_of_bind h
    cases h
    exact ⟨u, user_of_extract hu, .logoutAll (self_of_id hself)⟩
  | getUser =>
    obtain ⟨u, hu, h⟩ := ok_of_bind (ok_of_map h)
    obtain ⟨id, -, h⟩ := ok_of_bind h
    cases h
    exact ⟨u, user_of_extract hu, .getUser⟩
  | updateUser =>
    obtain ⟨u, hu, h⟩ := ok_of_bind (ok_of_map h)
    obtain ⟨id, hid, h⟩ := ok_of_bind h
    obtain ⟨payload, -, h⟩ := ok_of_bind h
    obtain ⟨_, -, h⟩ := ok_of_bind h
    split at h
    · cases h
    · cases h
      exact ⟨u, user_of_extract hu, .updateUser (param_of_parseId hid) requestedRole_none⟩
  | deleteUser =>
    obtain ⟨u, hu, h⟩ := ok_of_bind (ok_of_map h)
    obtain ⟨id, hid, h⟩ := ok_of_bind h
    obtain ⟨actorId, hself, h⟩ := ok_of_bind h
    cases h
    exact ⟨u, user_of_extract hu, .deleteUser (param_of_parseId hid) (self_of_id hself)⟩
  | setBalance =>
    obtain ⟨u, hu, h⟩ := ok_of_bind (ok_of_map h)
    obtain ⟨id, hid, h⟩ := ok_of_bind h
    obtain ⟨balance, -, h⟩ := ok_of_bind h
    cases h
    exact ⟨u, user_of_extract hu, .setBalance (param_of_parseId hid)⟩
  | adjustBalance =>
    obtain ⟨u, hu, h⟩ := ok_of_bind (ok_of_map h)
    obtain ⟨id, hid, h⟩ := ok_of_bind h
    obtain ⟨amount, -, h⟩ := ok_of_bind h
    cases h
    exact ⟨u, user_of_extract hu, .adjustBalance (param_of_parseId hid)⟩

/-- A registration gives no role. -/
theorem insert_of_register (h : registerHandler crates cfg v req = .ok call) :
    ∃ input, call = .createUser (.insert input "user") := by
  obtain ⟨payload, -, h⟩ := ok_of_bind h
  obtain ⟨_, -, h⟩ := ok_of_bind h
  split at h
  · cases h
  · obtain ⟨_, -, h⟩ := ok_of_bind h
    cases h
    exact ⟨_, rfl⟩

theorem mem_of_handler {route : ApiRoute} (h : route.handler = some handler) :
    (route, handler) ∈ apiHandlers := by
  obtain ⟨⟨route', handler'⟩, hfind, rfl⟩ := Option.map_eq_some_iff.mp h
  have hroute : route' = route := by simpa using List.find?_some hfind
  rw [← hroute]
  exact List.mem_of_find?_eq_some hfind

end

end Webshelf
