import Webshelf.Lib.Heap
import Webshelf.Lib.Versioned
import Webshelf.Store.User

/-!
# Postgres and Redis, one statement at a time

`Stmt` lists the SQL statements and the Redis commands the services issue, and
`Db.exec` what each does when a call issues it: `none` while the statement has
to wait for a lock, else the new store and the reply. A call has at most one
open transaction; a statement on `Conn.auto` is on a connection of its own and
commits by itself. A statement that fails ends the transaction of its call, as
PostgreSQL aborts it and the services drop it. BEGIN changes nothing under READ
COMMITTED and is not a step of its own.
-/

namespace Webshelf

/-- A call of a service, by its position among the calls made so far. -/
abbrev CallId := Nat

/-- The SHA-256 of a random refresh token. -/
abbrev TokenHash := Nat

/-- `refresh_tokens.id`. -/
abbrev TokenId := Nat

/-- The entity of `repositories/refresh_token.rs`; its id is its place in the table. -/
structure RefreshToken where
  userId : UserId
  tokenHash : TokenHash
  expiresAt : Time
  createdAt : Time
  deriving DecidableEq

/-- The Redis keys of the services: `user:{id}`, `user:token_version:{id}`,
`user:count:{role}`, and a key with `:null` behind it. -/
inductive CacheKey where
  | user (id : UserId)
  | tokenVersion (id : UserId)
  | userCount (role : String)
  | null (key : CacheKey)
  deriving DecidableEq

/-- `UserResponse` as it is cached; `token_version` and `wx_openid` are skipped. -/
structure UserResponse where
  id : UserId
  email : String
  name : String
  role : String
  emailVerified : Bool
  createdAt : Time
  updatedAt : Time
  balance : Int64
  deriving DecidableEq

/-- `impl From<Model> for UserResponse`, without the two skipped fields. -/
def UserResponse.ofModel (m : UserModel) : UserResponse :=
  ⟨m.id, m.email, m.name, m.role, m.emailVerified, m.createdAt, m.updatedAt, m.balance⟩

inductive CacheValue where
  | user (u : UserResponse)
  | version (v : Int)
  | count (n : Nat)
  | marker
  deriving DecidableEq

structure Db where
  users : UserId → Versioned CallId UserModel
  /-- Every id a row was ever inserted under. -/
  ids : List UserId
  tokens : Heap CallId RefreshToken
  redis : CacheKey → Option CacheValue

inductive DbErr where
  | uniqueViolation
  | other
  deriving DecidableEq

/-- `&*self.db`, or the open transaction. -/
inductive Conn where
  | auto
  | txn
  deriving DecidableEq

/-- The version of a row that a statement of `c` works on. -/
def Conn.sees (conn : Conn) (c : CallId) (r : Versioned CallId UserModel) : Option UserModel :=
  match conn with
  | .txn => r.view c
  | .auto => r.committed

inductive Stmt where
  | selectUser (p : UserModel → Bool)
  | selectUserById (id : UserId)
  | selectUserForUpdate (id : UserId)
  /-- `UPDATE users SET … WHERE id = … AND …` -/
  | updateUser (conn : Conn) (id : UserId) (p : UserModel → Bool) (set : UserModel → UserModel)
  | insertUser (m : UserModel)
  | deleteUser (id : UserId) (p : UserModel → Bool)
  /-- `SELECT … WHERE token_hash = … AND expires_at > … FOR UPDATE` -/
  | lockToken (hash : TokenHash) (now : Time)
  | deleteTokens (p : RefreshToken → Bool)
  /-- The same DELETE, woken up after it waited for a locked row. -/
  | resumeDelete (waiting : List TokenId)
  | insertToken (token : RefreshToken)
  | commit
  | rollback
  | redisGet (key : CacheKey)
  | redisExists (key : CacheKey)
  | redisSetEx (key : CacheKey) (ttlSecs : Int) (value : CacheValue)
  | redisDel (keys : List CacheKey)
  /-- No statement: the code goes on by itself. -/
  | skip

@[reducible] def Stmt.Reply : Stmt → Type
  | selectUser _ | selectUserById _ | selectUserForUpdate _ => Option UserModel
  | updateUser _ _ _ _ => Option UserModel
  | insertUser _ => UserModel
  | deleteUser _ _ => Nat
  | lockToken _ _ => Option (TokenId × RefreshToken)
  | deleteTokens _ | resumeDelete _ => List TokenId
  | insertToken _ => TokenId
  | commit | rollback => Unit
  | redisGet _ => Option CacheValue
  | redisExists _ => Bool
  | redisSetEx _ _ _ | redisDel _ | skip => Unit

/-- `active_model.update(conn)`: no row in the reply is SeaORM's RecordNotUpdated. -/
@[reducible] def ActiveModel.update (a : ActiveModel) (conn : Conn) : Stmt :=
  .updateUser conn a.id (fun _ => true) a.write

namespace Db

def setUser (db : Db) (id : UserId) (r : Versioned CallId UserModel) : Db :=
  { db with users := Function.update db.users id r }

def commit (c : CallId) (db : Db) : Db :=
  { db with users := fun id => (db.users id).commit c, tokens := db.tokens.commit c }

/-- Undo what the transaction of `c` did, if it has one. -/
def rollback (c : CallId) (db : Db) : Db :=
  { db with users := fun id => (db.users id).rollback c, tokens := db.tokens.rollback c }

def seen (db : Db) (c : CallId) (conn : Conn) (id : UserId) : Option UserModel :=
  conn.sees c (db.users id)

/-- A lock on the row makes the statement wait. -/
def blocked (db : Db) (c : CallId) (conn : Conn) (id : UserId) : Bool :=
  match conn with
  | .txn => (db.users id).heldByOther c
  | .auto => (db.users id).pending.isSome

/-- Rows a UNIQUE index holds against `m` standing under `id`. -/
def clashing (db : Db) (id : UserId) (m : UserModel) : List UserId :=
  db.ids.filter fun id' => decide (id' ≠ id) &&
    ((db.users id').committed.any m.clashes || (db.users id').pending.any (m.clashes ·.2))

/-- The first row a statement of `c` sees that satisfies `p`. -/
def findUser (db : Db) (c : CallId) (p : UserModel → Bool) : Option UserModel :=
  db.ids.findSome? fun id => ((db.users id).view c).filter p

def findToken (db : Db) (c : CallId) (p : RefreshToken → Bool) : Option TokenId :=
  (db.tokens.snapshot c p).head?

/-- Store a changed row, in the transaction or at once. -/
def storeUser (db : Db) (c : CallId) (conn : Conn) (id : UserId) (m : UserModel) : Db :=
  db.setUser id (match conn with
    | .txn => (db.users id).write c m
    | .auto => .put (some m))

def selectUserForUpdate (db : Db) (c : CallId) (id : UserId) :
    Option (Except DbErr (Db × Option UserModel)) :=
  match db.seen c .txn id with
  | none => some (.ok (db, none))
  | some m =>
    if db.blocked c .txn id then none else some (.ok (db.storeUser c .txn id m, some m))

def updateUser (db : Db) (c : CallId) (conn : Conn) (id : UserId) (p : UserModel → Bool)
    (set : UserModel → UserModel) : Option (Except DbErr (Db × Option UserModel)) :=
  match db.seen c conn id with
  | none => some (.ok (db, none))
  | some m =>
    -- a row the WHERE clause leaves out is not waited for
    if p m = false then some (.ok (db, none))
    else if db.blocked c conn id then none
    else if (set m).inRange = false then some (.error .other)
    else match db.clashing id (set m) with
      | [] => some (.ok (db.storeUser c conn id (set m), some (set m)))
      | other :: _ =>
        if db.blocked c conn other then none else some (.error .uniqueViolation)

/-- INSERT of a row under an id of the Snowflake generator, never used before. -/
def insertUser (db : Db) (m : UserModel) : Option (Except DbErr (Db × UserModel)) :=
  if m.id ∈ db.ids then none
  else if (db.users m.id).committed.isSome || (db.users m.id).pending.isSome then
    some (.error .uniqueViolation)
  else match db.clashing m.id m with
    | [] => some (.ok ({ db.setUser m.id (.put (some m)) with ids := db.ids ++ [m.id] }, m))
    | other :: _ =>
      if (db.users other).pending.isSome then none else some (.error .uniqueViolation)

/-- A transaction has a token of the user in hand, and with it a share of the user's row. -/
def tokenInHand (db : Db) (id : UserId) : Bool :=
  (List.range db.tokens.next).any fun i =>
    (db.tokens.get i).any fun (t, s) => t.userId == id && s.owner.isSome

/-- DELETE outside any transaction; the user's refresh tokens go with the row. -/
def deleteUser (db : Db) (id : UserId) (p : UserModel → Bool) :
    Option (Except DbErr (Db × Nat)) :=
  match (db.users id).committed with
  | none => some (.ok (db, 0))
  | some m =>
    if p m = false then some (.ok (db, 0))
    else if (db.users id).pending.isSome || db.tokenInHand id then none
    else some (.ok ({ db.setUser id (.put none) with
      tokens := db.tokens.drop fun t => t.userId == id }, 1))

def lockToken (db : Db) (c : CallId) (hash : TokenHash) (now : Time) :
    Option (Except DbErr (Db × Option (TokenId × RefreshToken))) :=
  match db.findToken c fun t => t.tokenHash == hash && decide (now < t.expiresAt) with
  | none => some (.ok (db, none))
  | some i =>
    match db.tokens.get i with
    | none => none
    | some (t, s) =>
      if s.heldByOther c then none
      else some (.ok ({ db with tokens := db.tokens.lock c i }, some (i, t)))

/-- DELETE of the rows of a snapshot, with the rows from the first one it waits for. -/
def scanTokens (db : Db) (c : CallId) (is : List TokenId) : Db × List TokenId :=
  ({ db with tokens := (db.tokens.deleteScan c is).2 }, (db.tokens.deleteScan c is).1)

def resumeDelete (db : Db) (c : CallId) (waiting : List TokenId) :
    Option (Except DbErr (Db × List TokenId)) :=
  if waiting.head?.any (fun i => (db.tokens.get i).any fun (_, s) => s.heldByOther c) then none
  else some (.ok (db.scanTokens c waiting))

/-- INSERT of a refresh token: its user must exist, its hash must not. -/
def insertToken (db : Db) (c : CallId) (token : RefreshToken) :
    Option (Except DbErr (Db × TokenId)) :=
  if (db.seen c .txn token.userId).isNone then some (.error .other)
  else match db.findToken c (fun t => t.tokenHash == token.tokenHash) with
    | some i =>
      if (db.tokens.get i).any (fun (_, s) => s.heldByOther c) then none
      else some (.error .uniqueViolation)
    | none => some (.ok ({ db with tokens := db.tokens.insert c token }, db.tokens.next))

/-- What a statement of call `c` does and answers. -/
def eval (db : Db) (c : CallId) : (s : Stmt) → Option (Except DbErr (Db × s.Reply))
  | .selectUser p => some (.ok (db, db.findUser c p))
  | .selectUserById id => some (.ok (db, db.seen c .txn id))
  | .selectUserForUpdate id => db.selectUserForUpdate c id
  | .updateUser conn id p set => db.updateUser c conn id p set
  | .insertUser m => db.insertUser m
  | .deleteUser id p => db.deleteUser id p
  | .lockToken hash now => db.lockToken c hash now
  | .deleteTokens p => some (.ok (db.scanTokens c (db.tokens.snapshot c p)))
  | .resumeDelete waiting => db.resumeDelete c waiting
  | .insertToken token => db.insertToken c token
  | .commit => some (.ok (db.commit c, ()))
  | .rollback => some (.ok (db.rollback c, ()))
  | .redisGet key => some (.ok (db, db.redis key))
  | .redisExists key => some (.ok (db, (db.redis key).isSome))
  | .redisSetEx key _ v =>
    some (.ok ({ db with redis := Function.update db.redis key (some v) }, ()))
  | .redisDel keys =>
    some (.ok ({ db with redis := fun key => if key ∈ keys then none else db.redis key }, ()))
  | .skip => some (.ok (db, ()))

/-- A failed statement leaves nothing of its call's transaction behind. -/
def fail (db : Db) (c : CallId) (e : DbErr) {ρ : Type} : Db × Except DbErr ρ :=
  (db.rollback c, .error e)

/-- A statement of call `c`; it may fail for a reason of its own. -/
def exec (db : Db) (c : CallId) (fails : Bool) (s : Stmt) : Option (Db × Except DbErr s.Reply) :=
  if fails then some (db.fail c .other)
  else (db.eval c s).map fun
    | .error e => db.fail c e
    | .ok (db', reply) => (db', .ok reply)

/-- A Redis entry reaches the end of its TTL. -/
def expire (db : Db) (key : CacheKey) : Db :=
  { db with redis := Function.update db.redis key none }

end Db

end Webshelf
