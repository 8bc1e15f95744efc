import Webshelf.Services.Basic

/-!
# Sessions

`services/auth.rs` with the JWTs its handlers issue. A remember-me login reads
the user row on a connection of its own and only then opens the transaction
that replaces the refresh tokens; a rotation locks the presented token first
and reads the user row inside its transaction.
-/

namespace Webshelf

/-- `LoginRequest`. -/
structure LoginRequest where
  email : String
  password : String
  remember : Bool
  deriving DecidableEq

/-- `AuthService::login`. -/
inductive Login where
  | find (request : LoginRequest)
  | revoke (user : UserModel) (token : JwtClaims) (hash : TokenHash) (expiresAt : Time)
  | revoking (user : UserModel) (token : JwtClaims) (hash : TokenHash) (expiresAt : Time)
      (waiting : List TokenId)
  | store (user : UserModel) (token : JwtClaims) (hash : TokenHash) (expiresAt : Time)
  | commit (user : UserModel) (token : JwtClaims) (stored : TokenId)
  | done (r : Except AuthError JwtClaims)
  deriving DecidableEq

def login (cfg : Settings) (env : Env) : Login → Next Login
  | .find request => some ⟨.selectUser fun m => m.email == cfg.toLowercase request.email, fun
    | .error _ => .done (.error .internal)
    | .ok none => .done (.error .invalidCredentials)
    | .ok (some user) =>
      if Argon2.verify request.password user.passwordHash = false then
        .done (.error .invalidCredentials)
      else if user.emailVerified = false then .done (.error .invalidCredentials)
      else
        let jwtExpiry :=
          if request.remember then cfg.jwtRememberExpirySeconds else cfg.jwtExpirySeconds
        let token :=
          generateToken env.now user.id user.role jwtExpiry request.remember user.tokenVersion
        if request.remember then
          .revoke user token env.salt (env.now + seconds cfg.refreshTokenExpirySeconds)
        else .done (.ok token)⟩
  | .revoke user token hash expiresAt => some ⟨deleteAllRefreshTokens user.id,
      deleted (.done (.error .internal)) (.revoking user token hash expiresAt)
        (.store user token hash expiresAt)⟩
  | .revoking user token hash expiresAt waiting => some ⟨.resumeDelete waiting,
      deleted (.done (.error .internal)) (.revoking user token hash expiresAt)
        (.store user token hash expiresAt)⟩
  | .store user token hash expiresAt => some ⟨.insertToken ⟨user.id, hash, expiresAt, env.now⟩, fun
    | .error _ => .done (.error .internal)
    | .ok stored => .commit user token stored⟩
  | .commit _ token _ => some ⟨.commit, fun
    | .error _ => .done (.error .internal)
    | .ok () => .done (.ok token)⟩
  | .done _ => none

/-- `wx_login_inner` once the captcha is verified: `lookup_user_role_and_version`. -/
inductive WxLogin where
  | find (userId : UserId)
  | done (r : Except AuthError JwtClaims)
  deriving DecidableEq

def wxLogin (cfg : Settings) (env : Env) : WxLogin → Next WxLogin
  | .find userId => some ⟨.selectUserById userId, fun
    | .error _ => .done (.error .internal)
    | .ok none => .done (.error .internal)
    | .ok (some user) => .done (.ok
        (generateToken env.now userId user.role cfg.jwtExpirySeconds false user.tokenVersion))⟩
  | .done _ => none

/-- `AuthService::rotate_refresh_token`; what it returns is signed by `refresh_inner`. -/
inductive Rotate where
  | lock (oldHash : TokenHash)
  | find (oldHash newHash : TokenHash) (expiresAt : Time) (old : TokenId) (record : RefreshToken)
  | delete (oldHash newHash : TokenHash) (expiresAt : Time) (old : TokenId) (user : UserModel)
  | deleting (newHash : TokenHash) (expiresAt : Time) (old : TokenId) (user : UserModel)
      (waiting : List TokenId)
  | store (newHash : TokenHash) (expiresAt : Time) (old : TokenId) (user : UserModel)
  | commit (old new : TokenId) (user : UserModel)
  | abort
  | done (r : Except AuthError (Option JwtClaims))
  deriving DecidableEq

def rotateRefreshToken (cfg : Settings) (env : Env) : Rotate → Next Rotate
  | .lock oldHash => some ⟨.lockToken oldHash env.now, fun
    | .error _ => .done (.error .internal)
    | .ok none => .abort
    | .ok (some (old, record)) =>
      .find oldHash env.salt (env.now + seconds cfg.refreshTokenExpirySeconds) old record⟩
  | .find oldHash newHash expiresAt old record => some ⟨.selectUserById record.userId, fun
    | .error _ => .done (.error .internal)
    | .ok none => .abort
    | .ok (some user) => .delete oldHash newHash expiresAt old user⟩
  | .delete oldHash newHash expiresAt old user =>
    some ⟨.deleteTokens fun t => t.tokenHash == oldHash,
      deleted (.done (.error .internal)) (.deleting newHash expiresAt old user)
        (.store newHash expiresAt old user)⟩
  | .deleting newHash expiresAt old user waiting => some ⟨.resumeDelete waiting,
      deleted (.done (.error .internal)) (.deleting newHash expiresAt old user)
        (.store newHash expiresAt old user)⟩
  | .store newHash expiresAt old user =>
    some ⟨.insertToken ⟨user.id, newHash, expiresAt, env.now⟩, fun
    | .error _ => .done (.error .internal)
    | .ok new => .commit old new user⟩
  | .commit _ _ user => some ⟨.commit, fun
    | .error _ => .done (.error .internal)
    | .ok () => .done (.ok (some (generateToken env.now user.id user.role
        cfg.jwtRememberExpirySeconds true user.tokenVersion)))⟩
  -- `return Ok(None)` drops the transaction
  | .abort => some ⟨.rollback, fun _ => .done (.ok none)⟩
  | .done _ => none

/-- `AuthService::revoke_all_sessions`, and the invalidation by the `logout_all` handler. -/
inductive RevokeAll where
  | revoke (userId : UserId)
  | revoking (userId : UserId) (waiting : List TokenId)
  | bump (userId : UserId)
  | commit (userId : UserId)
  | invalidate (userId : UserId)
  | done (r : Except AuthError Unit)
  deriving DecidableEq

def revokeAllSessions : RevokeAll → Next RevokeAll
  | .revoke userId => some ⟨deleteAllRefreshTokens userId,
      deleted (.done (.error .internal)) (.revoking userId) (.bump userId)⟩
  | .revoking userId waiting => some ⟨.resumeDelete waiting,
      deleted (.done (.error .internal)) (.revoking userId) (.bump userId)⟩
  | .bump userId => some ⟨bumpTokenVersion userId, fun
    | .error _ => .done (.error .internal)
    | .ok _ => .commit userId⟩
  | .commit userId => some ⟨.commit, fun
    | .error _ => .done (.error .internal)
    | .ok () => .invalidate userId⟩
  | .invalidate userId => some ⟨invalidate (tokenVersionKey userId), fun _ => .done (.ok ())⟩
  | .done _ => none

/-- `delete_refresh_token` of the `logout` handler, a transaction of its own; a
failure is only logged. -/
inductive Logout where
  | delete (tokenHash : TokenHash)
  | deleting (waiting : List TokenId)
  | commit
  | done
  deriving DecidableEq

def logout : Logout → Next Logout
  | .delete tokenHash => some ⟨.deleteTokens fun t => t.tokenHash == tokenHash,
      deleted .done .deleting .commit⟩
  | .deleting waiting => some ⟨.resumeDelete waiting, deleted .done .deleting .commit⟩
  | .commit => some ⟨.commit, fun _ => .done⟩
  | .done => none

/-- `verify_token_version` of `lib.rs`. -/
inductive CheckTokenVersion where
  | get (userId : UserId) (tokenVersion : Int)
  | find (userId : UserId) (tokenVersion : Int)
  | set (userId : UserId) (tokenVersion current : Int)
  | done (ok : Bool)
  deriving DecidableEq

def TOKEN_VERSION_TTL_SECS : Int := 30

def verifyTokenVersion : CheckTokenVersion → Next CheckTokenVersion
  | .get userId tokenVersion => some ⟨.redisGet (tokenVersionKey userId), fun
    | .ok (some (.version cached)) => .done (cached == tokenVersion)
    | _ => .find userId tokenVersion⟩
  | .find userId tokenVersion => some ⟨.selectUserById userId, fun
    | .error _ => .done false
    | .ok none => .done false
    | .ok (some user) => .set userId tokenVersion user.tokenVersion⟩
  | .set userId tokenVersion current =>
    some ⟨.redisSetEx (tokenVersionKey userId) TOKEN_VERSION_TTL_SECS (.version current),
      fun _ => .done (current == tokenVersion)⟩
  | .done _ => none

end Webshelf
