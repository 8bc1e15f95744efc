import Mathlib.Data.Option.Basic

/-!
# The users row

The entity of `repositories/user.rs`, the partial writes SeaORM makes of it, and
the ideal Argon2: a hash records its fresh salt and the text it was made from,
so two hashes are equal only if one is a copy of the other.
-/

namespace Webshelf

abbrev UserId := Int

/-- Microseconds, the resolution of TIMESTAMPTZ. -/
abbrev Time := Int

def seconds (n : Int) : Time := n * 1000000

def minutes (n : Int) : Time := seconds (60 * n)

/-- An Argon2 hash of `plain`. -/
structure Argon2 where
  salt : Nat
  plain : String
  deriving DecidableEq, Repr

/-- `hash_password` and `hash_code`, with the salt drawn for this call. -/
def Argon2.hash (salt : Nat) (plain : String) : Argon2 := ⟨salt, plain⟩

/-- `verify_password` and `verify_code`. -/
def Argon2.verify (plain : String) (h : Argon2) : Bool := h.plain == plain

/-- The columns of an emailed code: `verification_code_hash`,
`verification_code_expires_at`, `verification_code_sent_at` and
`verification_failed_attempts`, or the four `password_reset_…` ones. -/
structure CodeColumns where
  hash : Option Argon2
  expiresAt : Option Time
  sentAt : Option Time
  failedAttempts : Int
  deriving DecidableEq

def CodeColumns.empty : CodeColumns := ⟨none, none, none, 0⟩

structure UserModel where
  id : UserId
  email : String
  passwordHash : Argon2
  name : String
  role : String
  createdAt : Time
  updatedAt : Time
  tokenVersion : Int
  emailVerified : Bool
  verification : CodeColumns
  passwordReset : CodeColumns
  balance : Int64
  wxOpenid : Option String
  deriving DecidableEq

/-- Which of the two emailed codes. -/
inductive CodeKind where
  | verification
  | passwordReset
  deriving DecidableEq

def UserModel.code (m : UserModel) : CodeKind → CodeColumns
  | .verification => m.verification
  | .passwordReset => m.passwordReset

def UserModel.setCode (m : UserModel) (k : CodeKind) (c : CodeColumns) : UserModel :=
  match k with
  | .verification => { m with verification := c }
  | .passwordReset => { m with passwordReset := c }

@[simp] theorem UserModel.code_setCode (m : UserModel) (k : CodeKind) (c : CodeColumns) :
    (m.setCode k c).code k = c := by
  cases k <;> rfl

/-- The column constraints of `001_init.sql`: the CHECK on `role`, and the
range of the INTEGER columns that statements count up. -/
def UserModel.inRange (m : UserModel) : Bool :=
  (m.role == "user" || m.role == "admin" || m.role == "system") &&
    decide (m.tokenVersion ≤ 2147483647) &&
    decide (m.verification.failedAttempts ≤ 2147483647) &&
    decide (m.passwordReset.failedAttempts ≤ 2147483647)

/-- Two rows that a UNIQUE index (`email`, `wx_openid`) does not let stand together. -/
def UserModel.clashes (m m' : UserModel) : Bool :=
  m.email == m'.email || (m.wxOpenid.isSome && m.wxOpenid == m'.wxOpenid)

/-! ## Partial writes -/

/-- A column of an ActiveModel. Only a `set` column is written. -/
inductive ActiveValue (α : Type) where
  | set (v : α)
  | unchanged (v : α)
  | notSet

def ActiveValue.write {α : Type} : ActiveValue α → α → α
  | .set v, _ => v
  | .unchanged _, old | .notSet, old => old

structure ActiveCode where
  hash : ActiveValue (Option Argon2)
  expiresAt : ActiveValue (Option Time)
  sentAt : ActiveValue (Option Time)
  failedAttempts : ActiveValue Int

structure ActiveModel where
  id : UserId
  email : ActiveValue String
  passwordHash : ActiveValue Argon2
  name : ActiveValue String
  role : ActiveValue String
  createdAt : ActiveValue Time
  updatedAt : ActiveValue Time
  tokenVersion : ActiveValue Int
  emailVerified : ActiveValue Bool
  verification : ActiveCode
  passwordReset : ActiveCode
  balance : ActiveValue Int64
  wxOpenid : ActiveValue (Option String)

def CodeColumns.toActive (c : CodeColumns) : ActiveCode :=
  ⟨.unchanged c.hash, .unchanged c.expiresAt, .unchanged c.sentAt, .unchanged c.failedAttempts⟩

/-- `user.into()`: every column of the row that was read is `unchanged`. -/
def UserModel.toActive (m : UserModel) : ActiveModel where
  id := m.id
  email := .unchanged m.email
  passwordHash := .unchanged m.passwordHash
  name := .unchanged m.name
  role := .unchanged m.role
  createdAt := .unchanged m.createdAt
  updatedAt := .unchanged m.updatedAt
  tokenVersion := .unchanged m.tokenVersion
  emailVerified := .unchanged m.emailVerified
  verification := m.verification.toActive
  passwordReset := m.passwordReset.toActive
  balance := .unchanged m.balance
  wxOpenid := .unchanged m.wxOpenid

def ActiveCode.write (a : ActiveCode) (c : CodeColumns) : CodeColumns :=
  ⟨a.hash.write c.hash, a.expiresAt.write c.expiresAt, a.sentAt.write c.sentAt,
    a.failedAttempts.write c.failedAttempts⟩

/-- The SET clause of `ActiveModel::update` on the row as it is by then. -/
def ActiveModel.write (a : ActiveModel) (m : UserModel) : UserModel where
  id := m.id
  email := a.email.write m.email
  passwordHash := a.passwordHash.write m.passwordHash
  name := a.name.write m.name
  role := a.role.write m.role
  createdAt := a.createdAt.write m.createdAt
  updatedAt := a.updatedAt.write m.updatedAt
  tokenVersion := a.tokenVersion.write m.tokenVersion
  emailVerified := a.emailVerified.write m.emailVerified
  verification := a.verification.write m.verification
  passwordReset := a.passwordReset.write m.passwordReset
  balance := a.balance.write m.balance
  wxOpenid := a.wxOpenid.write m.wxOpenid

@[simp] theorem ActiveValue.write_unchanged {α : Type} (v old : α) :
    (ActiveValue.unchanged v).write old = old := rfl

@[simp] theorem ActiveValue.write_notSet {α : Type} (old : α) :
    (ActiveValue.notSet : ActiveValue α).write old = old := rfl

@[simp] theorem ActiveValue.write_set {α : Type} (v old : α) :
    (ActiveValue.set v).write old = v := rfl

@[simp] theorem CodeColumns.toActive_write (c old : CodeColumns) : c.toActive.write old = old := rfl

/-- Writing back a row that was read changes nothing, however stale it is. -/
theorem UserModel.toActive_write (m old : UserModel) : m.toActive.write old = old := rfl

end Webshelf
