import AppAdmission.Program
import AppAdmission.Store.Memory

/-!
# Stores as environments

What a program may run against: a store in memory with a request that stays wanted, and a store
that never answers, where every call lasts until the request is given up.
-/

namespace AppAdmission

/-- A store in memory, and a request that stays wanted. -/
def MemoryStore.environment : Environment MemoryStore where
  poll s := (false, s)
  answer s c := let (reply, s) := s.answer c; (some reply, s)

/-- A store that never answers. The state tells whether the request was given up. -/
def silentStore : Environment Bool where
  poll s := (s, s)
  answer _ _ := (none, true)

end AppAdmission
