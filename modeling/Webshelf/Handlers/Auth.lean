import Webshelf.Server.Serve

/-!
# The handlers of `handlers/auth.rs`

The five public endpoints of an account: each validates its body, makes one call
of a service, and turns the result into a status and a body. WeChat
captcha-login is off. The `validator` crate is a parameter.
-/

namespace Webshelf

/-- `HttpError` of the runtime. -/
structure HttpError where
  status : Nat
  errorType : String
  message : String
  deriving DecidableEq

namespace HttpError

def badRequest (msg : String) : HttpError := ⟨400, "bad_request", msg⟩
def unauthorized (msg : String) : HttpError := ⟨401, "unauthorized", msg⟩
def forbidden (msg : String) : HttpError := ⟨403, "forbidden", msg⟩
def notFound (msg : String) : HttpError := ⟨404, "not_found", msg⟩
def conflict (msg : String) : HttpError := ⟨409, "conflict", msg⟩
def internal (msg : String) : HttpError := ⟨500, "internal_error", msg⟩
def serviceUnavailable (msg : String) : HttpError := ⟨503, "service_unavailable", msg⟩

end HttpError

/-- `ApiError` of `utils/error.rs`. -/
inductive ApiError where
  | badRequest (msg : String)
  | unauthorized (msg : String)
  | forbidden (msg : String)
  | notFound (msg : String)
  | conflict (msg : String)
  | validation (msg : String)
  | internal (msg : String)
  | serviceUnavailable (msg : String)

/-- `impl From<ApiError> for HttpError`. -/
def HttpError.ofApi : ApiError → HttpError
  | .badRequest msg => .badRequest msg
  | .unauthorized msg => .unauthorized msg
  | .forbidden msg => .forbidden msg
  | .notFound msg => .notFound msg
  | .conflict msg => .conflict msg
  | .validation msg => { HttpError.badRequest msg with errorType := "validation_error" }
  | .internal _ => .internal "An unexpected error occurred"
  | .serviceUnavailable msg => .serviceUnavailable msg

/-- `impl From<AuthError> for ApiError`. -/
def ApiError.ofAuth : AuthError → ApiError
  | .invalidCredentials => .unauthorized "Invalid email or password"
  | .internal => .internal "An unexpected error occurred"

/-- `impl From<VerificationError> for ApiError`. -/
def ApiError.ofVerification : CodeError → ApiError
  | .invalidOrExpired | .tooManyAttempts => .badRequest "Invalid or expired verification code"
  | .tooSoon => .badRequest "Please wait before requesting a new code"
  | .emailNotConfigured => .serviceUnavailable "Email verification is currently unavailable"
  | .internal => .internal "An unexpected error occurred"

/-- `impl From<PasswordResetError> for ApiError`. -/
def ApiError.ofPasswordReset : CodeError → ApiError
  | .invalidOrExpired | .tooManyAttempts => .badRequest "Invalid or expired reset code"
  | .tooSoon => .badRequest "Please wait before requesting a new reset code"
  | .emailNotConfigured => .serviceUnavailable "Password reset is currently unavailable"
  | .internal => .internal "An unexpected error occurred"

/-! ## Requests -/

/-- The `validator` crate: `validate_email`, and the text of the errors of a body. -/
structure Validator where
  email : String → Bool
  display : List (String × String) → String

/-- The errors of a field: none if it meets its condition. -/
def fieldError (field message : String) (ok : Bool) : List (String × String) :=
  if ok then [] else [(field, message)]

def Validator.emailError (v : Validator) (email : String) : List (String × String) :=
  fieldError "email" "must be a valid email address" (v.email email)

/-- `payload.validate()`, with the errors in the order of the fields. -/
def Validator.validate (v : Validator) (errors : List (String × String)) : Except String Unit :=
  if errors.isEmpty then .ok () else .error (v.display errors)

def isSixDigits (code : String) : Bool := code.toList.all fun c => '0' ≤ c && c ≤ '9'

/-- A request with its parsed body. -/
inductive AuthRequest where
  | login (email password : String) (remember : Bool)
  | verifyEmail (email code : String)
  | resendCode (email : String)
  | forgotPassword (email : String)
  | resetPassword (email code newPassword : String)

/-- What a handler checks before it calls the service, and the call. -/
def AuthRequest.call (cfg : Settings) (v : Validator) : AuthRequest → Except HttpError Call
  | login email password remember =>
    match v.validate (v.emailError email ++
      fieldError "password" "password is required" (decide (1 ≤ password.length))) with
    | .error e => .error (.ofApi (.validation e))
    | .ok () => .ok (.login (.find ⟨cfg.toLowercase email, password, remember⟩))
  | verifyEmail email code =>
    match v.validate (v.emailError email ++
      fieldError "code" "code must be 6 characters" (code.length == 6)) with
    | .error e => .error (.badRequest e)
    | .ok () =>
      if isSixDigits code = false then .error (.badRequest "code must be 6 digits")
      else .ok (.verifyEmail (.find (cfg.toLowercase email) code))
  | resendCode email =>
    match v.validate (v.emailError email) with
    | .error e => .error (.badRequest e)
    | .ok () => .ok (.resendCode (.find (cfg.toLowercase email)))
  | forgotPassword email =>
    match v.validate (v.emailError email) with
    | .error e => .error (.badRequest e)
    | .ok () => .ok (.requestReset (.find (cfg.toLowercase email)))
  | resetPassword email code newPassword =>
    match v.validate (v.emailError email ++
      fieldError "code" "code must be 6 digits" (code.length == 6) ++
      fieldError "new_password" "password must be at least 8 characters"
        (decide (8 ≤ newPassword.length))) with
    | .error e => .error (.ofApi (.validation e))
    | .ok () =>
      if validatePassword newPassword = false then
        .error (.ofApi (.validation weakPasswordMessage))
      else if isSixDigits code = false then
        .error (.ofApi (.badRequest "code must be 6 digits"))
      else .ok (.resetPassword (.find (cfg.toLowercase email) code newPassword))

/-! ## Responses -/

inductive Body where
  | error (errorType message : String)
  | message (message : String)
  /-- `LoginResponse` or `ResetPasswordResponse`, by the JWT in it. -/
  | session (token : JwtClaims)
  deriving DecidableEq

/-- `Response` of the runtime, without its headers. -/
structure HttpResponse where
  status : Nat
  body : Body
  deriving DecidableEq

/-- `impl From<HttpError> for Response`. -/
def HttpResponse.ofError (e : HttpError) : HttpResponse := ⟨e.status, .error e.errorType e.message⟩

def HttpResponse.message (message : String) : HttpResponse := ⟨200, .message message⟩

/-- What a handler makes of the result of its call. -/
def Call.response : Call → Option HttpResponse
  | login (.done (.ok token)) => some ⟨200, .session token⟩
  | login (.done (.error e)) => some (.ofError (.ofApi (.ofAuth e)))
  | verifyEmail (.done (.ok ())) => some (.message "Email verified successfully")
  | verifyEmail (.done (.error e)) => some (.ofError (.ofApi (.ofVerification e)))
  -- a cooldown is not told
  | resendCode (.done (.ok ())) | resendCode (.done (.error .tooSoon)) =>
    some (.message "If that email is registered, a new verification code has been sent")
  | resendCode (.done (.error e)) => some (.ofError (.ofApi (.ofVerification e)))
  | requestReset (.done (.ok ())) | requestReset (.done (.error .tooSoon)) =>
    some (.message "If that email is registered, a reset code has been sent")
  | requestReset (.done (.error e)) => some (.ofError (.ofApi (.ofPasswordReset e)))
  | resetPassword (.done (.ok token)) => some ⟨200, .session token⟩
  | resetPassword (.done (.error e)) => some (.ofError (.ofApi (.ofPasswordReset e)))
  | _ => none

namespace World

/-- Answer one request. -/
def request (cfg : Settings) (v : Validator) (out : Outside) (fuel : Nat) (r : AuthRequest)
    (w : World) : Option (World × HttpResponse) :=
  match r.call cfg v with
  | .error e => some (w, .ofError e)
  | .ok call =>
    (w.step cfg (.invoke call)).bind fun joined =>
      (finish cfg out w.calls.length fuel joined).bind fun finished =>
        ((finished.calls[w.calls.length]?).bind Call.response).map fun response =>
          (finished, response)

/-- Answer requests one after the other. -/
def requests (cfg : Settings) (v : Validator) (out : Outside) (fuel : Nat) :
    List AuthRequest → World → Option (World × List HttpResponse)
  | [], w => some (w, [])
  | r :: rest, w =>
    (w.request cfg v out fuel r).bind fun (w', response) =>
      (requests cfg v out fuel rest w').map fun (w'', responses) => (w'', response :: responses)

end World

end Webshelf
