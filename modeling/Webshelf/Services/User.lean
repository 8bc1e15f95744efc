import Mathlib.Algebra.Group.Int.Defs
import Mathlib.Algebra.Group.Nat.Defs
import Webshelf.Services.Basic

/-!
# Users

`services/user.rs` with the JWT of the password handler, and the binding of an
openid in `services/wechat.rs`. `update_user` and
`change_password` read the row first and write it back in a partial UPDATE;
the balance functions read it with FOR UPDATE inside their transaction.
-/

namespace Webshelf

/-- Drop the cached keys one after the other; failures are only logged. -/
@[reducible] def invalidateNext {π : Type} (key : CacheKey) (rest : List CacheKey)
    (more : CacheKey → List CacheKey → π) (finished : π) : Next π :=
  some ⟨invalidate key, fun _ =>
    match rest with
    | [] => finished
    | next :: rest => more next rest⟩

/-! ## Creating -/

structure CreateUserInput where
  email : String
  password : String
  name : String
  role : Option String
  deriving DecidableEq

/-- The role `create_user` gives, by the actor's authority. -/
def roleForNewUser (actorRole : String) (role : Option String) : Except UserError String :=
  if actorRole = "system" then
    let r := role.getD "user"
    if r ≠ "user" ∧ r ≠ "admin" then .error (.notAllowed "Role must be 'user' or 'admin'")
    else .ok r
  else if actorRole = "admin" then
    if role = some "admin" then .error (.notAllowed "Admin can only create user accounts")
    else .ok "user"
  else .ok "user"

/-- `UserService::create_user`. -/
inductive CreateUser where
  | insert (input : CreateUserInput) (actorRole : String)
  | invalidate (user : UserModel) (key : CacheKey) (rest : List CacheKey)
  | done (r : Except UserError UserResponse)
  deriving DecidableEq

def newUser (cfg : Settings) (env : Env) (input : CreateUserInput) (role : String) :
    UserModel where
  id := env.newId
  email := cfg.toLowercase input.email
  passwordHash := .hash env.salt input.password
  name := input.name
  role := role
  createdAt := env.now
  updatedAt := env.now
  tokenVersion := 1
  emailVerified := false
  verification := .empty
  passwordReset := .empty
  balance := 0
  wxOpenid := none

def createUser (cfg : Settings) (env : Env) : CreateUser → Next CreateUser
  | .insert input actorRole =>
    if validatePassword input.password = false then
      some ⟨.skip, fun _ => .done (.error (.weakPassword weakPasswordMessage))⟩
    else match roleForNewUser actorRole input.role with
      | .error e => some ⟨.skip, fun _ => .done (.error e)⟩
      | .ok role => some ⟨.insertUser (newUser cfg env input role), fun
        | .error e => .done (.error (.ofDb e))
        | .ok user =>
          .invalidate user (.userCount "admin") [.userCount "user", .userCount "system"]⟩
  | .invalidate user key rest =>
    invalidateNext key rest (.invalidate user) (.done (.ok (.ofModel user)))
  | .done _ => none

/-! ## Reading -/

def USER_CACHE_TTL_SECS : Int := 300
def USER_NULL_TTL_SECS : Int := 30

/-- `UserService::get_user`; `get_user_scoped` calls it for an actor role. -/
inductive GetUser where
  | get (id : UserId) (actorRole : Option String)
  | marker (id : UserId) (actorRole : Option String)
  | find (id : UserId) (actorRole : Option String)
  | set (id : UserId) (actorRole : Option String) (user : UserResponse)
  | setNull (id : UserId)
  | done (r : Except UserError (Option UserResponse))
  deriving DecidableEq

/-- What `get_user_scoped` makes of the user that `get_user` returned. -/
def adminScope (actorRole : Option String) (user : UserResponse) : Option UserResponse :=
  if actorRole = some "admin" ∧ user.role ≠ "user" then none else some user

def getUser : GetUser → Next GetUser
  | .get id actorRole => some ⟨.redisGet (userCacheKey id), fun
    | .ok (some (.user user)) => .done (.ok (adminScope actorRole user))
    | _ => .marker id actorRole⟩
  | .marker id actorRole => some ⟨.redisExists (.null (userCacheKey id)), fun
    | .ok true => .done (.ok none)
    | _ => .find id actorRole⟩
  | .find id actorRole => some ⟨.selectUserById id, fun
    | .error _ => .done (.error .internal)
    | .ok none => .setNull id
    | .ok (some user) => .set id actorRole (.ofModel user)⟩
  | .set id actorRole user =>
    some ⟨.redisSetEx (userCacheKey id) USER_CACHE_TTL_SECS (.user user),
      fun _ => .done (.ok (adminScope actorRole user))⟩
  | .setNull id =>
    some ⟨.redisSetEx (.null (userCacheKey id)) USER_NULL_TTL_SECS .marker,
      fun _ => .done (.ok none)⟩
  | .done _ => none

/-! ## Updating -/

structure UpdateUserInput where
  email : Option String
  name : Option String
  role : Option String
  deriving DecidableEq

/-- What `update_user` checks on the row it read, up to the choice whether the
token version is bumped. -/
def checkUpdate (user : UserModel) (input : UpdateUserInput) (actorRole : String) :
    Except UserError Unit :=
  if user.role = "system" then .error .notFound
  else if actorRole = "admin" ∧ user.role ≠ "user" then .error .notFound
  else if actorRole = "admin" ∧ input.role = some "admin" then
    .error (.notAllowed "Admin cannot promote users to admin")
  else if input.role.any (fun role => role != "user" && role != "admin") then
    .error (.notAllowed "Role must be 'user' or 'admin'")
  else .ok ()

/-- The requested role is another one than the row had when it was read. -/
def roleChanged (user : UserModel) (input : UpdateUserInput) : Bool :=
  input.role.any fun role => role != user.role

def updateModel (cfg : Settings) (user : UserModel) (input : UpdateUserInput) (now : Time) :
    ActiveModel :=
  { user.toActive with
    email := (input.email.map fun e => .set (cfg.toLowercase e)).getD (.unchanged user.email)
    name := (input.name.map .set).getD (.unchanged user.name)
    tokenVersion := .notSet
    role := (input.role.map .set).getD (.unchanged user.role)
    updatedAt := .set now }

/-- `UserService::update_user`. -/
inductive UpdateUser where
  | find (id : UserId) (input : UpdateUserInput) (actorRole : String)
  | bump (id : UserId) (user : UserModel) (input : UpdateUserInput) (now : Time)
  | updateBumped (id : UserId) (user : UserModel) (input : UpdateUserInput) (now : Time)
  | commit (id : UserId)
  | refetch (id : UserId)
  | update (id : UserId) (user : UserModel) (input : UpdateUserInput) (now : Time)
  | invalidate (result : UserModel) (key : CacheKey) (rest : List CacheKey)
  | abort (e : UserError)
  | done (r : Except UserError UserResponse)
  deriving DecidableEq

def updateUser (cfg : Settings) (env : Env) : UpdateUser → Next UpdateUser
  | .find id input actorRole => some ⟨.selectUserById id, fun
    | .error _ => .done (.error .internal)
    | .ok none => .done (.error .notFound)
    | .ok (some user) =>
      match checkUpdate user input actorRole with
      | .error e => .done (.error e)
      | .ok () =>
        if roleChanged user input then .bump id user input env.now
        else .update id user input env.now⟩
  | .bump id user input now => some ⟨bumpTokenVersion id, fun
    | .error _ => .done (.error .internal)
    | .ok _ => .updateBumped id user input now⟩
  | .updateBumped id user input now => some ⟨(updateModel cfg user input now).update .txn, fun
    | .error e => .done (.error (.ofDb e))
    | .ok none => .abort .internal
    | .ok (some _) => .commit id⟩
  | .commit id => some ⟨.commit, fun
    | .error _ => .done (.error .internal)
    | .ok () => .refetch id⟩
  | .refetch id => some ⟨.selectUserById id, fun
    | .error _ => .done (.error .internal)
    | .ok none => .done (.error .notFound)
    | .ok (some result) => .invalidate result (userCacheKey id) [tokenVersionKey id]⟩
  | .update id user input now => some ⟨(updateModel cfg user input now).update .auto, fun
    | .error e => .done (.error (.ofDb e))
    | .ok none => .done (.error .internal)
    | .ok (some result) => .invalidate result (userCacheKey id) []⟩
  | .invalidate result key rest =>
    invalidateNext key rest (.invalidate result) (.done (.ok (.ofModel result)))
  | .abort e => some ⟨.rollback, fun _ => .done (.error e)⟩
  | .done _ => none

/-! ## Changing the password -/

/-- `UserService::change_password`, and the JWT of `change_my_password_inner`. -/
inductive ChangePassword where
  | find (id : UserId) (currentPassword newPassword : String) (remember : Bool)
  | bump (id : UserId) (user : UserModel) (newHash : Argon2) (remember : Bool)
  | update (id : UserId) (user : UserModel) (newHash : Argon2) (now : Time) (remember : Bool)
  | revoke (id : UserId) (remember : Bool)
  | revoking (id : UserId) (remember : Bool) (waiting : List TokenId)
  | commit (id : UserId) (remember : Bool)
  | refetch (id : UserId) (remember : Bool)
  | invalidate (updated : UserModel) (remember : Bool) (key : CacheKey) (rest : List CacheKey)
  | abort (e : UserError)
  | done (r : Except UserError JwtClaims)
  deriving DecidableEq

@[reducible] def changePasswordModel (user : UserModel) (newHash : Argon2) (now : Time) :
    ActiveModel :=
  { user.toActive with
    tokenVersion := .notSet
    passwordHash := .set newHash
    updatedAt := .set now }

def changePassword (cfg : Settings) (env : Env) : ChangePassword → Next ChangePassword
  | .find id currentPassword newPassword remember => some ⟨.selectUserById id, fun
    | .error _ => .done (.error .internal)
    | .ok none => .done (.error .notFound)
    | .ok (some user) =>
      if Argon2.verify currentPassword user.passwordHash = false then
        .done (.error .invalidCredentials)
      else if currentPassword = newPassword then
        .done (.error (.samePassword "New password must be different from current password"))
      else if validatePassword newPassword = false then
        .done (.error (.weakPassword weakPasswordMessage))
      else .bump id user (.hash env.salt newPassword) remember⟩
  | .bump id user newHash remember => some ⟨bumpTokenVersion id, fun
    | .error _ => .done (.error .internal)
    | .ok _ => .update id user newHash env.now remember⟩
  | .update id user newHash now remember =>
    some ⟨(changePasswordModel user newHash now).update .txn, fun
    | .error _ => .done (.error .internal)
    | .ok none => .abort .internal
    | .ok (some _) => .revoke id remember⟩
  | .revoke id remember => some ⟨deleteAllRefreshTokens id,
      deleted (.done (.error .internal)) (.revoking id remember) (.commit id remember)⟩
  | .revoking id remember waiting => some ⟨.resumeDelete waiting,
      deleted (.done (.error .internal)) (.revoking id remember) (.commit id remember)⟩
  | .commit id remember => some ⟨.commit, fun
    | .error _ => .done (.error .internal)
    | .ok () => .refetch id remember⟩
  | .refetch id remember => some ⟨.selectUserById id, fun
    | .error _ => .done (.error .internal)
    | .ok none => .done (.error .notFound)
    | .ok (some updated) =>
      .invalidate updated remember (userCacheKey id) [tokenVersionKey id]⟩
  | .invalidate updated remember key rest =>
    invalidateNext key rest (.invalidate updated remember) (.done (.ok
      (generateToken env.now updated.id updated.role
        (if remember then cfg.jwtRememberExpirySeconds else cfg.jwtExpirySeconds)
        remember updated.tokenVersion)))
  | .abort e => some ⟨.rollback, fun _ => .done (.error e)⟩
  | .done _ => none

/-! ## Deleting -/

/-- What `delete_user` checks on the row it read. -/
def checkDelete (id : UserId) (target : UserModel) (actorRole : String) (actorId : UserId) :
    Except UserError Unit :=
  if id = actorId then .error (.notAllowed "Cannot delete your own account")
  else if target.role = "system" then .error .notFound
  else if actorRole = "admin" ∧ target.role ≠ "user" then .error .notFound
  else .ok ()

/-- `UserService::delete_user`. -/
inductive DeleteUser where
  | find (id : UserId) (actorRole : String) (actorId : UserId)
  | delete (id : UserId) (actorRole : String)
  | invalidate (key : CacheKey) (rest : List CacheKey)
  | done (r : Except UserError Unit)
  deriving DecidableEq

def deleteUser : DeleteUser → Next DeleteUser
  | .find id actorRole actorId => some ⟨.selectUserById id, fun
    | .error _ => .done (.error .internal)
    | .ok none => .done (.error .notFound)
    | .ok (some target) =>
      match checkDelete id target actorRole actorId with
      | .error e => .done (.error e)
      | .ok () => .delete id actorRole⟩
  | .delete id actorRole =>
    some ⟨.deleteUser id fun m => decide (actorRole = "admin" → m.role = "user"), fun
    | .error _ => .done (.error .internal)
    | .ok 0 => .done (.error .notFound)
    | .ok _ => .invalidate (userCacheKey id) [tokenVersionKey id, .userCount "admin",
        .userCount "user", .userCount "system"]⟩
  | .invalidate key rest => invalidateNext key rest .invalidate (.done (.ok ()))
  | .done _ => none

/-! ## Balances -/

/-- `i64::checked_add`. -/
def checkedAdd (a b : Int64) : Option Int64 :=
  let sum := a.toInt + b.toInt
  if -2 ^ 63 ≤ sum ∧ sum < 2 ^ 63 then some (.ofInt sum) else none

/-- `check_balance_rbac`. -/
def checkBalanceRbac (target : UserModel) (actorRole : String) : Except UserError Unit :=
  if target.role = "system" then .error .notFound
  else if actorRole = "admin" ∧ target.role ≠ "user" then .error .notFound
  else if actorRole = "user" then .error (.notAllowed "Users cannot modify balance")
  else if actorRole ≠ "system" ∧ actorRole ≠ "admin" then
    .error (.notAllowed ("Role '" ++ actorRole ++ "' is not allowed to modify balance"))
  else .ok ()

/-- `set_balance` and `adjust_balance` differ in the balance they write. -/
inductive BalanceOp where
  | set (balance : Int64)
  | adjust (amount : Int64)
  deriving DecidableEq

def BalanceOp.newBalance (op : BalanceOp) (old : Int64) : Except UserError Int64 :=
  match op with
  | .set balance =>
    if balance < 0 then .error (.notAllowed "Balance cannot be negative") else .ok balance
  | .adjust amount =>
    match checkedAdd old amount with
    | none => .error (.notAllowed "Balance overflow")
    | some newBalance =>
      if newBalance < 0 then .error (.notAllowed "Insufficient balance") else .ok newBalance

/-- `UserService::set_balance` and `UserService::adjust_balance`. -/
inductive ModifyBalance where
  | lock (targetId : UserId) (op : BalanceOp) (actorRole : String)
  | update (targetId : UserId) (target : UserModel) (op : BalanceOp) (newBalance : Int64)
      (now : Time)
  | commit (targetId : UserId) (op : BalanceOp) (result : UserModel)
  | invalidate (targetId : UserId) (result : UserModel)
  | abort (e : UserError)
  | done (r : Except UserError UserResponse)
  deriving DecidableEq

@[reducible] def balanceModel (target : UserModel) (newBalance : Int64) (now : Time) :
    ActiveModel :=
  { target.toActive with balance := .set newBalance, updatedAt := .set now }

def modifyBalance (env : Env) : ModifyBalance → Next ModifyBalance
  | .lock targetId op actorRole => some ⟨.selectUserForUpdate targetId, fun
    | .error _ => .done (.error .internal)
    | .ok none => .abort .notFound
    | .ok (some target) =>
      match checkBalanceRbac target actorRole, op.newBalance target.balance with
      | .error e, _ => .abort e
      | .ok (), .error e => .abort e
      | .ok (), .ok newBalance => .update targetId target op newBalance env.now⟩
  | .update targetId target op newBalance now =>
    some ⟨(balanceModel target newBalance now).update .txn, fun
    | .error _ => .done (.error .internal)
    | .ok none => .abort .internal
    | .ok (some result) => .commit targetId op result⟩
  | .commit targetId _ result => some ⟨.commit, fun
    | .error _ => .done (.error .internal)
    | .ok () => .invalidate targetId result⟩
  | .invalidate targetId result =>
    some ⟨invalidate (userCacheKey targetId), fun _ => .done (.ok (.ofModel result))⟩
  -- an early return drops the transaction
  | .abort e => some ⟨.rollback, fun _ => .done (.error e)⟩
  | .done _ => none

def setBalance (targetId : UserId) (balance : Int64) (actorRole : String) : ModifyBalance :=
  .lock targetId (.set balance) actorRole

def adjustBalance (targetId : UserId) (amount : Int64) (actorRole : String) : ModifyBalance :=
  .lock targetId (.adjust amount) actorRole

/-! ## Openids -/

/-- `UPDATE users SET wx_openid = … WHERE id = …` of the binding store. -/
inductive SetOpenid where
  | update (userId : UserId) (openid : Option String)
  | done (r : Except UserError Unit)
  deriving DecidableEq

@[reducible] def storeOpenid (userId : UserId) (openid : Option String) : Stmt :=
  .updateUser .auto userId (fun _ => true) fun m => { m with wxOpenid := openid }

def setOpenid : SetOpenid → Next SetOpenid
  | .update userId openid => some ⟨storeOpenid userId openid, fun
    | .error _ => .done (.error .internal)
    | .ok _ => .done (.ok ())⟩
  | .done _ => none

def bindOpenid (userId : UserId) (openid : String) : SetOpenid := .update userId (some openid)

def unbindOpenid (userId : UserId) : SetOpenid := .update userId none

end Webshelf
