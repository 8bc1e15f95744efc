import Webshelf.Lib.Expiring
import Webshelf.Store.User

/-!
# Redis commands

A command or a script is atomic. The connection may not be there, the command
may fail, and its answer may be lost after it has run.
-/

namespace Webshelf

inductive RedisOutcome where
  | done
  /-- No connection: `conn()` is `None`. -/
  | unavailable
  | failed
  /-- The command has run, and the caller sees an error. -/
  | lost
  deriving DecidableEq

namespace RedisOutcome

/-- The command has its effect. -/
def runs : RedisOutcome → Bool
  | done | lost => true
  | unavailable | failed => false

/-- What a command that answers `a` comes back with; `absent` is the answer
without a connection. -/
def answer {α ε : Type} (a : α) (absent : Except ε α) (error : ε) : RedisOutcome → Except ε α
  | done => .ok a
  | unavailable => absent
  | failed | lost => .error error

end RedisOutcome

end Webshelf
