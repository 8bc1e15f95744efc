import Webshelf.Handlers.Login
import Webshelf.Wechat.Crypto
import Webshelf.Wechat.Reply
import Webshelf.Wechat.Trigger
import Mathlib.Data.List.Sort

/-!
# The callback of the official account, and the logins behind it

WeChat posts every message to the callback and signs it with the account's token.
A keyword makes the server store a captcha for the sender and reply with the
code; `wx_login` takes the code back, and so does `login` where WeChat is
configured. SHA-1, the XML deserializer and the crates of the safe mode are
parameters.
-/

namespace Webshelf

/-- `WechatMessage`: what the callback reads of it. -/
structure WechatMessage where
  toUserName : String
  fromUserName : String
  msgType : String
  content : Option String := none
  deriving DecidableEq

inductive MessageMode where
  | plain
  | compatible
  | safe
  deriving DecidableEq

structure WechatConfig where
  token : String
  encodingAesKey : Option String := none
  messageMode : MessageMode := .plain

def WechatConfig.isSafeMode (config : WechatConfig) : Bool := config.messageMode == .safe

/-- `WechatComponents`, with the whole `LoginConfig` of the captcha service. -/
structure WechatComponents where
  config : WechatConfig
  login : LoginConfig := {}
  triggerKeywords : List String := ["验证码", "登录码", "login"]

/-- SHA-1, `quick_xml::de::from_str` at the message and at the envelope's `<Encrypt>`, and the
crates behind `crypto-safe-mode` where the build has them. -/
structure CallbackCrates where
  sha1 : List UInt8 → List UInt8
  message : String → Except String WechatMessage
  encrypt : String → Except String (Option String)
  safeMode : Option AesCrypto.Crates
  alphabet : Trigger.Alphabet

/-- The errors of `parse_callback`. -/
inductive CallbackError where
  | configIncomplete (msg : String)
  | signatureMismatch
  | xmlParse (msg : String)
  | decrypt (msg : String)
  deriving DecidableEq

/-! ## Signatures -/

def HEX : List Char := "0123456789abcdef".toList

def hexEncode (bytes : List UInt8) : String :=
  String.ofList (bytes.flatMap fun b =>
    [HEX.getD (b.toNat / 16) '0', HEX.getD (b.toNat % 16) '0'])

/-- The parts are sorted by their bytes, which is the order of their characters. -/
def computeSignature (sha1 : List UInt8 → List UInt8) (token timestamp nonce : String) : String :=
  let parts := [token, timestamp, nonce].insertionSort (· ≤ ·)
  hexEncode (sha1 (AesCrypto.utf8 (String.join parts).toList))

def verifySignature (sha1 : List UInt8 → List UInt8)
    (token timestamp nonce signature : String) : Bool :=
  eqIgnoreAsciiCase (computeSignature sha1 token timestamp nonce) signature

/-- `CallbackQuery` of a POST. -/
structure CallbackQuery where
  signature : String := ""
  timestamp : String := ""
  nonce : String := ""

def CallbackQuery.fromParams (params : List (String × String)) : CallbackQuery :=
  params.foldl (fun q (k, v) => match k with
    | "signature" => { q with signature := v }
    | "timestamp" => { q with timestamp := v }
    | "nonce" => { q with nonce := v }
    | _ => q) {}

section
variable (crates : CallbackCrates)

def extractEncryptTag (xml : String) : Except CallbackError String :=
  match crates.encrypt xml with
  | .error e => .error (.xmlParse ("encrypt envelope: " ++ e))
  | .ok none => .error (.decrypt "missing <Encrypt> tag in safe-mode envelope")
  | .ok (some encrypt) => .ok encrypt

/-- The XML of a message, decrypted in safe mode. -/
def callbackXml (config : WechatConfig) (body : String) : Except CallbackError String :=
  if config.isSafeMode then
    match crates.safeMode, config.encodingAesKey with
    | none, _ => .error (.configIncomplete
        "safe mode requested but crypto-safe-mode feature is not enabled")
    | some _, none => .error (.configIncomplete "encoding_aes_key required for safe mode")
    | some aes, some aesKey => do
      let encrypt ← extractEncryptTag crates body
      match AesCrypto.decryptMessage aes aesKey.toList encrypt.toList with
      | .error e => .error (.decrypt e)
      | .ok xml => .ok (String.ofList xml)
  else .ok body

def parseCallback (config : WechatConfig) (query : CallbackQuery) (body : String) :
    Except CallbackError WechatMessage :=
  if !verifySignature crates.sha1 config.token query.timestamp query.nonce query.signature then
    .error .signatureMismatch
  else do
    let xml ← callbackXml crates config body
    match crates.message xml with
    | .error e => .error (.xmlParse e)
    | .ok message => .ok message

/-! ## The callback -/

/-- A POST to the callback: its parameters and its body as they are read, and the code
that `generate_code` draws if it comes to that. -/
structure CallbackPost where
  query : Except String (List (String × String))
  body : Except String String
  drawn : String

/-- The message of a POST; `none` where `wechat_process_callback` fails. -/
def CallbackPost.message (post : CallbackPost) (config : WechatConfig) : Option WechatMessage :=
  match post.query, post.body with
  | .ok params, .ok body => (parseCallback crates config (.fromParams params) body).toOption
  | _, _ => none

/-- A text with a trigger keyword. -/
def WechatMessage.asksForCode (comps : WechatComponents) (msg : WechatMessage) : Bool :=
  Trigger.matchesTrigger crates.alphabet (comps.triggerKeywords.map String.toList)
    (msg.content.getD "").toList

end

/-- `build_text_reply` to the sender. -/
def WechatMessage.reply (msg : WechatMessage) (now : Time) (text : String) : List Char :=
  Reply.buildTextReply (now / seconds 1) msg.fromUserName.toList msg.toUserName.toList text.toList

def codeText (cfg : LoginConfig) (code : String) : String :=
  "Your verification code: " ++ code ++
    "\nEnter this code on the login page to sign in. Valid for " ++
    toString cfg.captchaTtlSecs ++ " seconds."

def cooldownText : String :=
  "A verification code was already sent recently. Please check your chat history or wait " ++
    "before requesting a new one."

def busyText : String := "System busy, please try again later."

def helpText : String :=
  "Send \"verification code\" or \"login\" to receive a captcha code for logging in to WebShelf."

def welcomeText : String := "Welcome to WebShelf! Send \"verification code\" to log in."

/-- Where `wechat_callback_post` stands. -/
inductive CallbackPhase where
  | received
  /-- `generate` for the sender of the message. -/
  | generating (msg : WechatMessage) (phase : GenerateCaptcha)
  /-- Answered 200 OK with this body. -/
  | answered (body : List Char)

/-- The `match` on what `generate` has returned, once it has. -/
def CallbackPhase.ofGenerate (cfg : LoginConfig) (msg : WechatMessage) (code : String)
    (now : Time) : GenerateCaptcha → CallbackPhase
  | .issued => .answered (msg.reply now (codeText cfg code))
  | .failed .cooldownActive => .answered (msg.reply now cooldownText)
  | .failed _ => .answered (msg.reply now busyText)
  | phase => .generating msg phase

/-- `wechat_process_callback` for request `n`; an error is answered `success`. -/
def wechatCallbackPost (crates : CallbackCrates) (comps : WechatComponents) (n : Nat)
    (post : CallbackPost) (s : Wechat) :
    CallbackPhase → RedisOutcome → Option (Wechat × CallbackPhase)
  | .received, _ => some (s, match post.message crates comps.config with
    | none => .answered "success".toList
    | some msg =>
      if msg.msgType = "text" then
        if msg.asksForCode crates comps then .generating msg .setNx
        else .answered (msg.reply s.redis.clock helpText)
      else .answered (msg.reply s.redis.clock welcomeText))
  | .generating msg phase, outcome =>
    (generateCaptcha comps.login n msg.fromUserName post.drawn s phase outcome).map fun (a, q) =>
      (a, .ofGenerate comps.login msg post.drawn s.redis.clock q)
  | .answered _, _ => none

/-! ## The logins -/

/-- The two endpoints that take the code of a captcha. -/
inductive CaptchaEndpoint where
  | wxLogin (code : String)
  | login (body : LoginRequestBody)

namespace CaptchaEndpoint

def code : CaptchaEndpoint → String
  | wxLogin code => code
  | login body => body.captchaCode.getD ""

/-- What comes before the captcha. -/
def check (v : Validator) : CaptchaEndpoint → Except ApiError Unit
  | wxLogin _ => .ok ()
  | login body => match body.validate v with
    | .error e => .error e
    | .ok () => if (body.captchaCode.getD "").isEmpty then .error invalidCaptcha else .ok ()

/-- The call of the services once the captcha is verified. -/
def call (cfg : Settings) (userId : UserId) : CaptchaEndpoint → Call
  | wxLogin _ => .wxLogin (.find userId)
  | login body => .login (.find (body.request cfg))

/-- The session or the error that is answered once the call has returned. -/
def finish (cfg : Settings) (userId : UserId) (clock : Time) :
    CaptchaEndpoint → Call → Option (Except ApiError LoginSession)
  | wxLogin _, .wxLogin (.done (.error e)) => some (.error (.ofAuth e))
  | wxLogin _, .wxLogin (.done (.ok token)) =>
    some (match unixTimestampFromNow clock cfg.jwtExpirySeconds with
      | .error e => .error e
      | .ok expiresAt => .ok ⟨token, expiresAt⟩)
  | login body, .login (.done r) => some (finishLogin cfg (some userId) body clock r)
  | _, _ => none

end CaptchaEndpoint

/-- An accepted captcha: the openid, the captcha that the code has matched, the one that has
been consumed, and the user that the openid is bound to. -/
structure AcceptedCaptcha where
  openid : String
  stored : Captcha
  taken : Captcha
  userId : UserId

/-- Where `wx_login_inner` or `login_inner` stands. -/
inductive SignInPhase where
  | received
  /-- `verify_for_openid` -/
  | verify (openid : String) (phase : VerifyForOpenid)
  /-- `find_user_by_openid` -/
  | find (openid : String) (stored taken : Captcha)
  /-- Waits for its call of the services. -/
  | waiting (accepted : AcceptedCaptcha) (call : CallId)
  | answered (accepted : AcceptedCaptcha) (call : CallId) (r : Except ApiError LoginSession)
  /-- Answered with an error before it has made its call. -/
  | refused (e : ApiError)

/-- The `match` on `verify_for_openid`, once it has returned. -/
def SignInPhase.ofVerify (openid : String) : VerifyForOpenid → SignInPhase
  | .accepted stored taken => .find openid stored taken
  | .rejected _ _ | .failed _ => .refused invalidCaptcha
  | phase => .verify openid phase

/-- What a step of a request finds outside. -/
structure WechatInput where
  redis : RedisOutcome := .done
  dbFails : Bool := false
  clock : Time := 0

/-- `wx_login_inner` or `login_inner`, for request `n`. -/
def signIn (cfg : Settings) (v : Validator) (comps : WechatComponents) (n : Nat)
    (endpoint : CaptchaEndpoint) (s : LoginState) :
    SignInPhase → WechatInput → Option (LoginState × SignInPhase)
  | .received, input => some (s,
      match endpoint.check v with
      | .error e => .refused e
      | .ok () => match input.redis.answer (s.wechat.redis.get (.code endpoint.code)) (.ok none)
          WechatError.internal with
        | .error e => .refused (.ofWechat e)
        | .ok none => .refused invalidCaptcha
        | .ok (some openid) => .verify openid .peek)
  | .verify openid phase, input =>
    (verifyForOpenid comps.login n openid endpoint.code s.wechat phase input.redis).map
      fun (a, q) => ({ s with wechat := a }, .ofVerify openid q)
  | .find openid stored taken, input =>
    let c := s.world.calls.length
    match if input.dbFails then none else s.world.db.findUserByOpenid c openid with
    | none => some (s, .refused invalidCaptcha)
    | some userId => (s.world.step cfg (.invoke (endpoint.call cfg userId))).map fun world =>
      ({ s with world }, .waiting ⟨openid, stored, taken, userId⟩ c)
  | .waiting accepted c, input => (s.world.calls[c]?.bind
      (endpoint.finish cfg accepted.userId input.clock)).map fun r => (s, .answered accepted c r)
  | .answered _ _ _, _ | .refused _, _ => none

/-! ## All of them, and the services -/

/-- A request to the callback or to one of the logins. -/
inductive WechatRequest where
  | callback (post : CallbackPost) (phase : CallbackPhase)
  | signIn (endpoint : CaptchaEndpoint) (phase : SignInPhase)

/-- A request as it comes in. -/
def WechatRequest.isNew : WechatRequest → Bool
  | callback post .received => decide (FromCharset post.drawn)
  | signIn _ .received => true
  | _ => false

/-- What happens beside the requests. -/
inductive ServerMove where
  | server (l : Label)
  /-- Time passes, and keys expire. -/
  | tick (now : Time)

/-- The calls that only the logins make. -/
def Label.signsIn : Label → Bool
  | .invoke (.wxLogin _) | .invoke (.login _) => true
  | _ => false

/-- Any number of requests beside everything else the server does, WeChat being configured. -/
def wechatEndpoints (crates : CallbackCrates) (cfg : Settings) (v : Validator)
    (comps : WechatComponents) :
    Threads.Program LoginState WechatRequest WechatInput ServerMove where
  initial := WechatRequest.isNew
  next n s request input := match request with
    | .callback post phase =>
      (wechatCallbackPost crates comps n post s.wechat phase input.redis).map fun (a, q) =>
        ({ s with wechat := a }, .callback post q)
    | .signIn endpoint phase =>
      (Webshelf.signIn cfg v comps n endpoint s phase input).map fun (a, q) =>
        (a, .signIn endpoint q)
  surround s
    | .server l =>
      if l.signsIn then none else (s.world.step cfg l).map fun world => { s with world }
    | .tick now =>
      if s.wechat.redis.clock ≤ now then
        some { s with wechat := { s.wechat with redis := s.wechat.redis.tick now } }
      else none

end Webshelf
