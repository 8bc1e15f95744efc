import Webshelf.Store.Statement

/-!
# What the services share

A call of a service is a state machine: its state is the place between two
statements, with the variables the rest of the function still reads, and `next`
is the statement it issues there and how it goes on from the reply. `Env` is
what the code reads on the way: the clock, the random source, the mail service.
-/

namespace Webshelf

/-- Deployment settings, and Rust's `to_lowercase`. -/
structure Settings where
  toLowercase : String → String
  jwtExpirySeconds : Int
  jwtRememberExpirySeconds : Int
  refreshTokenExpirySeconds : Int

structure Env where
  now : Time
  /-- A random value no other step draws: a salt, a refresh token. -/
  salt : Nat
  /-- The six digits of `generate_code`. -/
  code : String
  /-- An id of the Snowflake generator. -/
  newId : UserId
  emailConfigured : Bool
  sendOk : Bool

/-- The statement a call issues, and the call after the reply; `none` once it has returned. -/
abbrev Next (π : Type) := Option ((s : Stmt) × (Except DbErr s.Reply → π))

/-- Continue a machine inside a larger one. -/
def Next.map {π ρ : Type} (f : π → ρ) : Next π → Next ρ
  | none => none
  | some ⟨s, k⟩ => some ⟨s, fun r => f (k r)⟩

theorem Next.map_some {π ρ : Type} {f : π → ρ} {n : Next π} {s : Stmt}
    {k : Except DbErr s.Reply → ρ} (h : n.map f = some ⟨s, k⟩) :
    ∃ k', n = some ⟨s, k'⟩ ∧ k = fun r => f (k' r) := by
  cases n with
  | none => cases h
  | some q =>
    obtain ⟨s', k'⟩ := q
    cases h
    exact ⟨k', rfl, rfl⟩

/-- `JwtClaims` of `webshelf-runtime/src/auth.rs`; issuer and audience are constants. -/
structure JwtClaims where
  sub : UserId
  exp : Time
  iat : Time
  role : String
  tokenVersion : Int
  remember : Bool
  deriving DecidableEq

/-- `generate_token` of `utils/jwt.rs`. -/
def generateToken (now : Time) (userId : UserId) (role : String) (expirySeconds : Int)
    (remember : Bool) (tokenVersion : Int) : JwtClaims :=
  ⟨userId, now + seconds expirySeconds, now, role, tokenVersion, remember⟩

/-- `validate_password` of `utils/validator.rs`. -/
def validatePassword (password : String) : Bool :=
  decide (8 ≤ password.utf8ByteSize) && decide (password.utf8ByteSize ≤ 128) &&
    password.toList.any (fun c => 'a' ≤ c && c ≤ 'z') &&
    password.toList.any (fun c => 'A' ≤ c && c ≤ 'Z') &&
    password.toList.any (fun c => '0' ≤ c && c ≤ '9') &&
    password.toList.any (fun c => ('!' ≤ c && c ≤ '/') || (':' ≤ c && c ≤ '@') ||
      ('[' ≤ c && c ≤ '\x60') || ('\x7b' ≤ c && c ≤ '~'))

def weakPasswordMessage : String :=
  "Password must be at least 8 characters and contain at least one uppercase letter, " ++
    "one lowercase letter, one digit, and one special character"

/-- `AuthError` of `services/auth.rs`. -/
inductive AuthError where
  | invalidCredentials
  | internal
  deriving DecidableEq

/-- `UserError` of `services/user.rs`. -/
inductive UserError where
  | notFound
  | emailConflict
  | invalidCredentials
  | weakPassword (message : String)
  | samePassword (message : String)
  | notAllowed (message : String)
  | internal
  deriving DecidableEq

/-- A failed write as the user service reports it. -/
def UserError.ofDb : DbErr → UserError
  | .uniqueViolation => .emailConflict
  | .other => .internal

def tokenVersionKey (id : UserId) : CacheKey := .tokenVersion id

def userCacheKey (id : UserId) : CacheKey := .user id

/-- `CacheService::invalidate`: the key and its negative marker. -/
@[reducible] def invalidate (key : CacheKey) : Stmt := .redisDel [key, .null key]

/-- `UPDATE users SET token_version = token_version + 1 WHERE id = $1`, in a transaction. -/
@[reducible] def bumpTokenVersion (id : UserId) : Stmt :=
  .updateUser .txn id (fun _ => true) fun m => { m with tokenVersion := m.tokenVersion + 1 }

/-- Go on after a DELETE of refresh tokens, or wait at the first of the rows it left. -/
def deleted {π : Type} (failed : π) (waiting : List TokenId → π) (finished : π) :
    Except DbErr (List TokenId) → π
  | .error _ => failed
  | .ok [] => finished
  | .ok (i :: is) => waiting (i :: is)

/-- `DELETE FROM refresh_tokens WHERE user_id = $1`. -/
@[reducible] def deleteAllRefreshTokens (userId : UserId) : Stmt :=
  .deleteTokens fun t => t.userId == userId

end Webshelf
