import ScopedLisp.Eval.Expression

/-!
# Sessions

A session is a store with the frame in which its texts are evaluated, one after the other. Each
text leaves its bindings to the next, also when it fails.
-/

namespace ScopedLisp

/-- A store and the frame that texts are evaluated in. -/
structure Session where
  store : Store
  global : FrameId

namespace Session

/-- A session over a root frame. -/
def start : Session := ⟨Store.empty.pushRoot, Store.empty.next⟩

/-- A session over a frame that binds nothing. -/
def bare : Session := ⟨Store.empty.pushEmpty, Store.empty.next⟩

/-- Evaluates one text, nested no deeper than `depth`: how that ended, and the session after it. -/
def run (depth : Nat) (s : Session) (source : String) : Except Stop (Option Value) × Session :=
  match evalText depth source s.global s.store with
  | .ok result store => (.ok result, { s with store })
  | .error stop store => (.error stop, { s with store })

/-- The value that a name has in the session. -/
def get? (s : Session) (name : String) : Option Value := s.store.get? s.global name

end Session

end ScopedLisp
