import Mathlib.Data.List.Infix
import Webshelf.Adapters.Response

/-!
# The email of a login, read twice

The rate limiter takes the email from the bytes of the body, trying JSON before
the form encoding; the login handler goes by the content type. `json` and `form`
are the grammars of `serde_json` and `serde_urlencoded`, the same whatever type is
read; every byte string is a form.
-/

namespace Webshelf.Adapters

/-! ## Decoding -/

/-- The last member of that name, which is the one a map keeps. -/
def lastOf {α : Type} (key : String) (members : List (String × α)) : Option α :=
  members.foldl (fun found m => if m.1 = key then some m.2 else found) none

/-- `Value::get` with a string. -/
def Json.get (value : Json) (key : String) : Option Json :=
  match value with
  | .object members => lastOf key members
  | _ => none

def Json.asStr : Json → Option String
  | .string s => some s
  | _ => none

def Json.asBool : Json → Option Bool
  | .bool b => some b
  | _ => none

/-- How the values of a format become those of a Rust field. -/
structure FieldFormat (α : Type) where
  string : α → Option String
  bool : α → Option Bool
  optionString : α → Option (Option String)

def jsonFields : FieldFormat Json where
  string := Json.asStr
  bool := Json.asBool
  optionString
    | .null => some none
    | value => value.asStr.map some

def formFields : FieldFormat String where
  string := some
  bool
    | "true" => some true
    | "false" => some false
    | _ => none
  optionString value := some (some value)

structure LoginRequestBody where
  email : String
  password : String
  remember : Bool
  captchaCode : Option String
  deriving DecidableEq

/-- The fields the derived visitor has met so far. -/
structure LoginFields where
  email : Option String := none
  password : Option String := none
  remember : Option Bool := none
  captchaCode : Option (Option String) := none

/-- One member; a second one for the same field is an error, an unknown one is skipped. -/
def LoginFields.visit {α : Type} (format : FieldFormat α) (fields : LoginFields)
    (member : String × α) : Option LoginFields :=
  match member.1 with
  | "email" => if fields.email.isSome then none
    else (format.string member.2).map fun email => { fields with email := some email }
  | "password" => if fields.password.isSome then none
    else (format.string member.2).map fun password => { fields with password := some password }
  | "remember" => if fields.remember.isSome then none
    else (format.bool member.2).map fun remember => { fields with remember := some remember }
  | "captcha_code" => if fields.captchaCode.isSome then none
    else (format.optionString member.2).map fun code => { fields with captchaCode := some code }
  | _ => some fields

/-- `visit_map` of the derived `Deserialize`. -/
def LoginRequestBody.visitMap {α : Type} (format : FieldFormat α) (members : List (String × α)) :
    Option LoginRequestBody := do
  let fields ← members.foldlM (LoginFields.visit format) {}
  let email ← fields.email
  let password ← fields.password
  some ⟨email, password, fields.remember.getD false, fields.captchaCode.getD none⟩

/-- `visit_seq`: the fields in their order, where the defaulted ones may be missing. -/
def LoginRequestBody.visitSeq (items : List Json) : Option LoginRequestBody :=
  match items with
  | [email, password] => do
    some ⟨← email.asStr, ← password.asStr, false, none⟩
  | [email, password, remember] => do
    some ⟨← email.asStr, ← password.asStr, ← remember.asBool, none⟩
  | [email, password, remember, captchaCode] => do
    some ⟨← email.asStr, ← password.asStr, ← remember.asBool, ← jsonFields.optionString captchaCode⟩
  | _ => none

/-- `serde_json` reads a struct from an object or from an array. -/
def LoginRequestBody.ofJson : Json → Option LoginRequestBody
  | .object members => visitMap jsonFields members
  | .array items => visitSeq items
  | _ => none

/-! ## The two readers -/

def containsStr (s needle : String) : Bool := decide (needle.toList <:+: s.toList)

section
variable (json : Bytes → Option Json) (form : Bytes → List (String × String))
  (toLowercase : String → String)

/-- The choice of `parse_json_or_form`. -/
def isForm (contentType : Option String) : Bool :=
  containsStr (toAsciiLowercase (contentType.getD "")) "application/x-www-form-urlencoded"

/-- `parse_json_or_form` of the login handler. -/
def parseJsonOrForm (contentType : Option String) (bytes : Bytes) : Option LoginRequestBody :=
  if isForm contentType then LoginRequestBody.visitMap formFields (form bytes)
  else (json bytes).bind LoginRequestBody.ofJson

/-- `extract_email_from_body` of the Axum middleware. -/
def extractEmailFromBody (bytes : Bytes) : Option String :=
  let fallback := (lastOf "email" (form bytes)).map toLowercase
  match json bytes with
  | none => fallback
  | some value =>
    match value.get "email" with
    -- `val.get("email")?` leaves the function
    | none => none
    | some member =>
      match member.asStr with
      | some email => some (toLowercase email)
      | none => fallback

/-- `extract_email_from_body` of the Salvo middleware. -/
def Salvo.extractEmailFromBody (bytes : Bytes) : Option String :=
  Adapters.extractEmailFromBody json form toLowercase bytes

/-- The limiter counts a decoded login under its email. -/
def CountsLogin (contentType : Option String) (bytes : Bytes) : Prop :=
  ∀ body, parseJsonOrForm json form contentType bytes = some body →
    extractEmailFromBody json form toLowercase bytes = some (toLowercase body.email) ∧
      Salvo.extractEmailFromBody json form toLowercase bytes = some (toLowercase body.email)

/-- A JSON login is not given as an array. A form is not JSON, or JSON with a member
`email` that is no string or the same address. -/
def ReadsAlike (contentType : Option String) (bytes : Bytes) : Prop :=
  ∀ value, json bytes = some value →
    if isForm contentType then
      (LoginRequestBody.visitMap formFields (form bytes)).isSome = true →
        ∃ member, value.get "email" = some member ∧
          ∀ s email, member = .string s → lastOf "email" (form bytes) = some email →
            toLowercase s = toLowercase email
    else ∀ items, value = .array items → LoginRequestBody.visitSeq items = none

end

/-! ## Where they agree -/

section
variable {α : Type} {format : FieldFormat α} {members : List (String × α)}

/-- A field is set once, to a value that its format accepts. -/
theorem LoginFields.of_visited {β : Type} {met : Bool} {value : Option β}
    {set : β → LoginFields} {next : LoginFields}
    (h : (if met then none else value.map set) = some next) :
    ∃ v, value = some v ∧ next = set v := by
  split at h
  · cases h
  · obtain ⟨v, hv, hnext⟩ := Option.map_eq_some_iff.mp h
    exact ⟨v, hv, hnext.symm⟩

/-- A member for another field, or for none, leaves the email as it is. -/
theorem LoginFields.visit_email {fields next : LoginFields} {m : String × α}
    (h : visit format fields m = some next) :
    next.email = if m.1 = "email" then format.string m.2 else fields.email := by
  unfold visit at h
  split at h
  · rename_i hkey
    obtain ⟨email, hemail, rfl⟩ := of_visited h
    rw [if_pos hkey, hemail]
  · rename_i hkey
    obtain ⟨_, _, rfl⟩ := of_visited h
    rw [hkey, if_neg (by decide)]
  · rename_i hkey
    obtain ⟨_, _, rfl⟩ := of_visited h
    rw [hkey, if_neg (by decide)]
  · rename_i hkey
    obtain ⟨_, _, rfl⟩ := of_visited h
    rw [hkey, if_neg (by decide)]
  · rename_i hkey _ _ _
    cases h
    rw [if_neg hkey]

/-- The visitor has the last `email` of the members it has met. -/
theorem LoginFields.email_foldlM {fields fields' : LoginFields} {found : Option α}
    (h : members.foldlM (visit format) fields = some fields')
    (hf : fields.email = found.bind format.string) :
    fields'.email = (members.foldl (fun found m => if m.1 = "email" then some m.2 else found)
      found).bind format.string := by
  induction members generalizing fields found with
  | nil =>
    cases h
    exact hf
  | cons m ms ih =>
    rw [List.foldlM_cons] at h
    obtain ⟨next, hnext, hrest⟩ := Option.bind_eq_some_iff.mp h
    rw [List.foldl_cons]
    refine ih hrest ?_
    rw [visit_email hnext]
    split
    · rfl
    · exact hf

theorem LoginRequestBody.visitMap_email {body : LoginRequestBody}
    (h : visitMap format members = some body) :
    (lastOf "email" members).bind format.string = some body.email := by
  simp only [visitMap, Option.bind_eq_bind, Option.bind_eq_some_iff] at h
  obtain ⟨fields, hfields, email, hemail, password, hpassword, hbody⟩ := h
  cases hbody
  exact (LoginFields.email_foldlM hfields rfl).symm.trans hemail

end

section
variable {json : Bytes → Option Json} {form : Bytes → List (String × String)}
  {toLowercase : String → String} {contentType : Option String} {bytes : Bytes}

theorem LoginRequestBody.ofJson_object {value : Json} {body : LoginRequestBody}
    (h : ofJson value = some body)
    (harray : ∀ items, value = .array items → visitSeq items = none) :
    value.get "email" = some (.string body.email) := by
  cases value with
  | object members =>
    obtain ⟨member, hget, hstr⟩ := Option.bind_eq_some_iff.mp (visitMap_email h)
    cases member with
    | string s =>
      cases hstr
      exact hget
    | null | bool | number | array | object => cases hstr
  | array items =>
    rw [ofJson, harray items rfl] at h
    cases h
  | null | bool | number | string => cases h

theorem asStr_eq_some {value : Json} {s : String} (h : value.asStr = some s) :
    value = .string s := by
  cases value <;> cases h
  rfl

theorem LoginRequestBody.visitMap_form {members : List (String × String)}
    {body : LoginRequestBody} (h : visitMap formFields members = some body) :
    lastOf "email" members = some body.email := by
  obtain ⟨email, hlast, hemail⟩ := Option.bind_eq_some_iff.mp (visitMap_email h)
  cases hemail
  exact hlast

/-- What the limiter makes of a body that is JSON. -/
theorem extract_json {value member : Json} (hjson : json bytes = some value)
    (hget : value.get "email" = some member) :
    extractEmailFromBody json form toLowercase bytes = match member.asStr with
      | some email => some (toLowercase email)
      | none => (lastOf "email" (form bytes)).map toLowercase := by
  simp only [extractEmailFromBody, hjson, hget]

theorem extract_json_none {value : Json} (hjson : json bytes = some value)
    (hget : value.get "email" = none) :
    extractEmailFromBody json form toLowercase bytes = none := by
  simp only [extractEmailFromBody, hjson, hget]

theorem ReadsAlike.counts_form {body : LoginRequestBody} (hform : isForm contentType = true)
    (h : ReadsAlike json form toLowercase contentType bytes)
    (hbody : LoginRequestBody.visitMap formFields (form bytes) = some body) :
    extractEmailFromBody json form toLowercase bytes = some (toLowercase body.email) := by
  have hlast := LoginRequestBody.visitMap_form hbody
  cases hjson : json bytes with
  | none => simp only [extractEmailFromBody, hjson, hlast, Option.map_some]
  | some value =>
    have hvalue := h value hjson
    rw [if_pos hform] at hvalue
    obtain ⟨member, hget, hsame⟩ := hvalue (Option.isSome_iff_exists.mpr ⟨body, hbody⟩)
    rw [extract_json hjson hget]
    cases hstr : member.asStr with
    | none => rw [hlast, Option.map_some]
    | some s => exact congrArg some (hsame s body.email (asStr_eq_some hstr) hlast)

theorem ReadsAlike.counts_json {body : LoginRequestBody} (hform : isForm contentType = false)
    (h : ReadsAlike json form toLowercase contentType bytes)
    (hbody : (json bytes).bind LoginRequestBody.ofJson = some body) :
    extractEmailFromBody json form toLowercase bytes = some (toLowercase body.email) := by
  obtain ⟨value, hjson, hof⟩ := Option.bind_eq_some_iff.mp hbody
  have hvalue := h value hjson
  rw [if_neg (by simp [hform])] at hvalue
  rw [extract_json hjson (LoginRequestBody.ofJson_object hof hvalue)]
  rfl

/-- The limiter counts every decoded login under its email exactly where the two readers
read alike. -/
theorem counts_login_iff (json : Bytes → Option Json) (form : Bytes → List (String × String))
    (toLowercase : String → String) (contentType : Option String) (bytes : Bytes) :
    CountsLogin json form toLowercase contentType bytes ↔
      ReadsAlike json form toLowercase contentType bytes := by
  cases hform : isForm contentType with
  | true =>
    constructor
    · intro hcounts value hjson
      rw [if_pos hform]
      intro hdecodes
      obtain ⟨body, hbody⟩ := Option.isSome_iff_exists.mp hdecodes
      obtain ⟨hextract, _⟩ := hcounts body (by rw [parseJsonOrForm, if_pos hform, hbody])
      cases hget : value.get "email" with
      | none => cases (extract_json_none hjson hget).symm.trans hextract
      | some member =>
        refine ⟨member, rfl, ?_⟩
        rintro s email rfl hlast
        cases hlast.symm.trans (LoginRequestBody.visitMap_form hbody)
        exact Option.some.inj ((extract_json hjson hget).symm.trans hextract)
    · intro halike body hbody
      rw [parseJsonOrForm, if_pos hform] at hbody
      exact ⟨halike.counts_form hform hbody, halike.counts_form hform hbody⟩
  | false =>
    constructor
    · intro hcounts value hjson
      rw [if_neg (by simp [hform])]
      rintro items rfl
      by_contra hdecodes
      obtain ⟨body, hbody⟩ := Option.ne_none_iff_exists'.mp hdecodes
      obtain ⟨hextract, _⟩ := hcounts body (by
        rw [parseJsonOrForm, if_neg (by simp [hform]), hjson]
        exact hbody)
      cases (extract_json_none hjson rfl).symm.trans hextract
    · intro halike body hbody
      rw [parseJsonOrForm, if_neg (by simp [hform])] at hbody
      exact ⟨halike.counts_json hform hbody, halike.counts_json hform hbody⟩

end

/-- A form whose text is a JSON object as well: another address for the limiter. -/
def twoAddresses : String :=
  "\x7b\"a\":\"&email=ada@example.com&password=Passw0rd!&\",\"email\":\"eve@example.com\"\x7d"

/-- What the two grammars make of that text. -/
def twoAddressesJson : Json :=
  .object [("a", .string "&email=ada@example.com&password=Passw0rd!&"),
    ("email", .string "eve@example.com")]

def twoAddressesForm : List (String × String) :=
  [("\x7b\"a\":\"", ""), ("email", "ada@example.com"), ("password", "Passw0rd!"),
    ("\",\"email\":\"eve@example.com\"\x7d", "")]

theorem login_counted_elsewhere :
    ¬ CountsLogin (fun bytes => if bytes = twoAddresses.toUTF8.toList then some twoAddressesJson
        else none) (fun _ => twoAddressesForm) (fun s => s)
      (some "application/x-www-form-urlencoded") twoAddresses.toUTF8.toList := by
  intro hcounts
  obtain ⟨hextract, _⟩ := hcounts ⟨"ada@example.com", "Passw0rd!", false, none⟩ (by decide)
  rw [extract_json (if_pos rfl) (show twoAddressesJson.get "email" = _ by rfl)] at hextract
  exact absurd hextract (by decide)

end Webshelf.Adapters
