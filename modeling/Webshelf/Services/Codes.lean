import Webshelf.Services.Basic

/-!
# Emailed codes

`services/verification.rs` and `services/password_reset.rs`. Issuing a code
(`resend_code`, `request_reset`) is one guarded UPDATE after the lookup.
Presenting one (`verify_email`, `reset_password`) reads the row, takes one of
the attempts in a second statement, compares with the hash it read, and only
then writes the row.
-/

namespace Webshelf

def CODE_EXPIRY_MINUTES : Int := 10
def RESEND_COOLDOWN_SECONDS : Int := 60
def MAX_FAILED_ATTEMPTS : Int := 5

/-- `VerificationError` and `PasswordResetError`, which have the same variants. -/
inductive CodeError where
  | invalidOrExpired
  | tooManyAttempts
  | tooSoon
  | emailNotConfigured
  | internal
  deriving DecidableEq

/-- `increment_failed_attempts` of either service. -/
@[reducible] def incrementFailedAttempts (kind : CodeKind) (userId : UserId) : Stmt :=
  .updateUser .auto userId
    (fun m => decide ((m.code kind).failedAttempts < MAX_FAILED_ATTEMPTS))
    fun m => m.setCode kind
      { m.code kind with failedAttempts := (m.code kind).failedAttempts + 1 }

/-- The atomic cooldown enforcement of `resend_code` and `request_reset`. -/
@[reducible] def storeCode (kind : CodeKind) (userId : UserId) (codeHash : Argon2)
    (now : Time) : Stmt :=
  .updateUser .auto userId
    (fun m => (m.code kind).sentAt.all fun t => decide (t ≤ now - seconds RESEND_COOLDOWN_SECONDS))
    fun m => m.setCode kind ⟨some codeHash, some (now + minutes CODE_EXPIRY_MINUTES), some now, 0⟩

/-- The hash a presented code is going to be compared with: one is stored and has not expired. -/
def usableHash (kind : CodeKind) (now : Time) (user : UserModel) : Option Argon2 :=
  match (user.code kind).hash, (user.code kind).expiresAt with
  | some h, some expiresAt => if now > expiresAt then none else some h
  | _, _ => none

/-! ## Issuing -/

inductive IssueCode where
  | find (email : String)
  | store (user : UserModel) (email code : String) (codeHash : Argon2) (now : Time)
  | done (r : Except CodeError Unit)
  deriving DecidableEq

/-- The two issuing functions differ in what they return early for a found user. -/
def IssueCode.next (cfg : Settings) (kind : CodeKind)
    (early : Env → UserModel → Option (Except CodeError Unit)) (env : Env) :
    IssueCode → Next IssueCode
  | .find email => some ⟨.selectUser fun m => m.email == cfg.toLowercase email, fun
    | .error _ => .done (.error .internal)
    | .ok none => .done (.ok ())
    | .ok (some user) =>
      match early env user with
      | some r => .done r
      | none => .store user (cfg.toLowercase email) env.code (.hash env.salt env.code) env.now⟩
  | .store user _ _ codeHash now => some ⟨storeCode kind user.id codeHash now, fun
    | .error _ => .done (.error .internal)
    | .ok none => .done (.error .tooSoon)
    | .ok (some _) => if env.sendOk then .done (.ok ()) else .done (.error .internal)⟩
  | .done _ => none

/-- `PasswordResetService::request_reset`. -/
def requestReset (cfg : Settings) : Env → IssueCode → Next IssueCode :=
  IssueCode.next cfg .passwordReset fun env _ =>
    if env.emailConfigured then none else some (.error .emailNotConfigured)

/-- `VerificationService::resend_code`. -/
def resendCode (cfg : Settings) : Env → IssueCode → Next IssueCode :=
  IssueCode.next cfg .verification fun env user =>
    if user.emailVerified then some (.ok ())
    else if env.emailConfigured then none else some (.error .emailNotConfigured)

/-- `VerificationService::send_verification_email`, with `store_verification_code`. -/
inductive SendVerification where
  | find (email : String)
  | store (user : UserModel) (email code : String) (codeHash : Argon2) (now : Time)
  | done (r : Except CodeError Unit)
  deriving DecidableEq

@[reducible] def sendVerificationModel (user : UserModel) (codeHash : Argon2) (now : Time) :
    ActiveModel :=
  { user.toActive with
    verification := ⟨.set (some codeHash), .set (some (now + minutes CODE_EXPIRY_MINUTES)),
      .set (some now), .set 0⟩
    updatedAt := .set now }

def sendVerificationEmail (cfg : Settings) (env : Env) : SendVerification → Next SendVerification
  | .find email => some ⟨.selectUser fun m => m.email == cfg.toLowercase email, fun
    | .error _ => .done (.error .internal)
    | .ok none => .done (.ok ())
    | .ok (some user) =>
      if env.emailConfigured = false then .done (.error .emailNotConfigured)
      else if user.emailVerified then .done (.ok ())
      else .store user (cfg.toLowercase email) env.code (.hash env.salt env.code) env.now⟩
  | .store user _ _ codeHash now =>
    some ⟨(sendVerificationModel user codeHash now).update .auto, fun
    | .error _ => .done (.error .internal)
    | .ok none => .done (.error .internal)
    | .ok (some _) => if env.sendOk then .done (.ok ()) else .done (.error .internal)⟩
  | .done _ => none

/-! ## Presenting -/

/-- `VerificationService::auto_verify`. -/
inductive AutoVerify where
  | find (email : String)
  | update (user : UserModel) (now : Time)
  | done (r : Except CodeError Unit)
  deriving DecidableEq

@[reducible] def autoVerifyModel (user : UserModel) (now : Time) : ActiveModel :=
  { user.toActive with emailVerified := .set true, updatedAt := .set now }

def autoVerify (cfg : Settings) (env : Env) : AutoVerify → Next AutoVerify
  | .find email => some ⟨.selectUser fun m => m.email == cfg.toLowercase email, fun
    | .error _ => .done (.error .internal)
    | .ok none => .done (.ok ())
    | .ok (some user) => if user.emailVerified then .done (.ok ()) else .update user env.now⟩
  | .update user now => some ⟨(autoVerifyModel user now).update .auto, fun
    | .error _ => .done (.error .internal)
    | .ok none => .done (.error .internal)
    | .ok (some _) => .done (.ok ())⟩
  | .done _ => none

/-- `VerificationService::verify_email`. -/
inductive VerifyEmail where
  | find (email code : String)
  | claim (user : UserModel) (codeHash : Argon2) (code : String)
  | update (user : UserModel) (codeHash : Argon2) (now : Time)
  | done (r : Except CodeError Unit)
  deriving DecidableEq

@[reducible] def verifyEmailModel (user : UserModel) (now : Time) : ActiveModel :=
  { user.toActive with
    emailVerified := .set true
    verification := ⟨.set none, .set none, .set none, .set 0⟩
    updatedAt := .set now }

def verifyEmail (cfg : Settings) (env : Env) : VerifyEmail → Next VerifyEmail
  | .find email code => some ⟨.selectUser fun m => m.email == cfg.toLowercase email, fun
    | .error _ => .done (.error .internal)
    | .ok none => .done (.error .invalidOrExpired)
    | .ok (some user) =>
      if user.emailVerified then .done (.error .invalidOrExpired)
      else match usableHash .verification env.now user with
        | none => .done (.error .invalidOrExpired)
        | some codeHash => .claim user codeHash code⟩
  | .claim user codeHash code => some ⟨incrementFailedAttempts .verification user.id, fun
    | .error _ => .done (.error .internal)
    | .ok none => .done (.error .tooManyAttempts)
    | .ok (some _) =>
      if Argon2.verify code codeHash then .update user codeHash env.now
      else .done (.error .invalidOrExpired)⟩
  | .update user _ now => some ⟨(verifyEmailModel user now).update .auto, fun
    | .error _ => .done (.error .internal)
    | .ok none => .done (.error .internal)
    | .ok (some _) => .done (.ok ())⟩
  | .done _ => none

/-- The guarded UPDATE that replaces the password and consumes the code. -/
@[reducible] def consumeResetCode (userId : UserId) (newHash : Argon2) (now : Time) : Stmt :=
  .updateUser .txn userId (fun m => m.passwordReset.hash.isSome) fun m =>
    { m with
      tokenVersion := m.tokenVersion + 1
      passwordHash := newHash
      updatedAt := now
      passwordReset := ⟨none, none, none, 0⟩ }

/-- `PasswordResetService::reset_password`, and the JWT of `reset_password_inner`. -/
inductive ResetPassword where
  | find (email code newPassword : String)
  | claim (user : UserModel) (storedHash : Argon2) (code newPassword : String)
  | update (user : UserModel) (storedHash newHash : Argon2)
  | refetch (user : UserModel) (storedHash : Argon2)
  | revoke (user : UserModel) (storedHash : Argon2) (updated : UserModel)
  | revoking (user : UserModel) (storedHash : Argon2) (updated : UserModel)
      (waiting : List TokenId)
  | commit (user : UserModel) (storedHash : Argon2) (updated : UserModel)
  | abort (e : CodeError)
  | done (r : Except CodeError JwtClaims)
  deriving DecidableEq

def resetPassword (cfg : Settings) (env : Env) : ResetPassword → Next ResetPassword
  | .find email code newPassword =>
    some ⟨.selectUser fun m => m.email == cfg.toLowercase email, fun
    | .error _ => .done (.error .internal)
    | .ok none => .done (.error .invalidOrExpired)
    | .ok (some user) =>
      match usableHash .passwordReset env.now user with
      | none => .done (.error .invalidOrExpired)
      | some storedHash => .claim user storedHash code newPassword⟩
  | .claim user storedHash code newPassword =>
    some ⟨incrementFailedAttempts .passwordReset user.id, fun
    | .error _ => .done (.error .internal)
    | .ok none => .done (.error .tooManyAttempts)
    | .ok (some _) =>
      if Argon2.verify code storedHash then .update user storedHash (.hash env.salt newPassword)
      else .done (.error .invalidOrExpired)⟩
  | .update user storedHash newHash => some ⟨consumeResetCode user.id newHash env.now, fun
    | .error _ => .done (.error .internal)
    | .ok none => .abort .invalidOrExpired
    | .ok (some _) => .refetch user storedHash⟩
  | .refetch user storedHash => some ⟨.selectUserById user.id, fun
    | .error _ => .done (.error .internal)
    | .ok none => .abort .internal
    | .ok (some updated) => .revoke user storedHash updated⟩
  | .revoke user storedHash updated =>
    some ⟨deleteAllRefreshTokens updated.id,
      deleted (.done (.error .internal)) (.revoking user storedHash updated)
        (.commit user storedHash updated)⟩
  | .revoking user storedHash updated waiting =>
    some ⟨.resumeDelete waiting,
      deleted (.done (.error .internal)) (.revoking user storedHash updated)
        (.commit user storedHash updated)⟩
  | .commit _ _ updated => some ⟨.commit, fun
    | .error _ => .done (.error .internal)
    | .ok () => .done (.ok (generateToken env.now updated.id updated.role cfg.jwtExpirySeconds
        false updated.tokenVersion))⟩
  | .abort e => some ⟨.rollback, fun
    | .error _ => .done (.error .internal)
    | .ok () => .done (.error e)⟩
  | .done _ => none

end Webshelf
