import ScopedLisp.Error
import ScopedLisp.Store.Basic

/-!
# Evaluation as an effect

Evaluation works on the store and ends in one of three ways: with a result, with an error of the
language, or because the depth granted to it was used up. The store comes back in all three:
what was bound before a failure stays bound. The third way stands in for the overflow of the stack,
on which the program nests evaluations.

The actions below are the only ways in which evaluation touches the store. The equations after
them say what each does to a store; with `bind_apply` they are all that a proof about a run has
to know of the effect.
-/

namespace ScopedLisp

/-- Why an evaluation ended without a result. -/
inductive Stop where
  | error (e : EvalError)
  /-- Evaluation was nested deeper than it was granted. The program grants no depth: it aborts
  where its stack overflows. -/
  | depth

/-- The text of an error. That of `depth` is printed where the program, which aborts there, prints
no such line. -/
def Stop.message : Stop → String
  | error e => e.message
  | depth => "evaluation nested too deeply"

/-- A computation on the store that may stop early. -/
abbrev Eval := EStateM Stop Store

/-- How an evaluation ended, with the store it left. -/
abbrev Eval.Outcome := EStateM.Result Stop Store

/-- Evaluates an expression in a frame; `none` is the result of what produces nothing. -/
abbrev Evaluator := Value → FrameId → Eval (Option Value)

namespace Eval

variable {α β : Type}

def fail (e : EvalError) : Eval α := throw (.error e)

def ofExcept : Except EvalError α → Eval α
  | .ok a => pure a
  | .error e => fail e

/-- The value of `name` as seen from frame `f`. -/
def lookup (f : FrameId) (name : String) : Eval Value := do
  match (← get).get? f name with
  | some v => pure v
  | none => fail (.unbound name)

/-- Binds `name` in frame `f`. -/
def define (f : FrameId) (name : String) (value : Value) : Eval Unit :=
  modify (·.define f name value)

/-- Overwrites the binding of `name` that is seen from frame `f`. -/
def assign (f : FrameId) (name : String) (value : Value) : Eval Unit := do
  match (← get).find? f name with
  | some g => define g name value
  | none => fail (.unbound name)

/-- Makes a frame inside `outer` that binds `params` to `args`. -/
def enter (params : List String) (args : List Value) (outer : FrameId) : Eval FrameId :=
  modifyGet fun s => (s.next, s.pushNested params args outer)

/-- Makes a closure over frame `home`. -/
def close (params : List String) (body : Value) (home : FrameId) : Eval Value :=
  modifyGet fun s => s.makeClosure params body home

/-! ## What the actions do to a store -/

theorem pure_apply (a : α) (s : Store) : (pure a : Eval α) s = .ok a s := rfl

theorem bind_apply (m : Eval α) (k : α → Eval β) (s : Store) :
    (m >>= k) s = match m s with
      | .ok a s' => k a s'
      | .error stop s' => .error stop s' := by
  show EStateM.bind m k s = _
  rw [EStateM.bind]
  cases m s <;> rfl

theorem fail_apply (e : EvalError) (s : Store) : (fail e : Eval α) s = .error (.error e) s := rfl

theorem lookup_apply (f : FrameId) (name : String) (s : Store) :
    lookup f name s = match s.get? f name with
      | some v => .ok v s
      | none => .error (.error (.unbound name)) s := by
  show (match s.get? f name with
    | some v => (pure v : Eval Value)
    | none => fail (.unbound name)) s = _
  cases s.get? f name <;> rfl

theorem define_apply (f : FrameId) (name : String) (value : Value) (s : Store) :
    define f name value s = .ok () (s.define f name value) := rfl

/-- An assignment is `Store.set?`, with its failure an error that leaves the store alone. -/
theorem assign_apply (f : FrameId) (name : String) (value : Value) (s : Store) :
    assign f name value s = match s.set? f name value with
      | some s' => .ok () s'
      | none => .error (.error (.unbound name)) s := by
  show (match s.find? f name with
    | some g => define g name value
    | none => fail (.unbound name)) s = _
  rw [Store.set?]
  cases s.find? f name <;> rfl

theorem enter_apply (params : List String) (args : List Value) (outer : FrameId) (s : Store) :
    enter params args outer s = .ok s.next (s.pushNested params args outer) := rfl

theorem close_apply (params : List String) (body : Value) (home : FrameId) (s : Store) :
    close params body home s =
      .ok (.closure s.closures params body home) { s with closures := s.closures + 1 } := rfl

end Eval

end ScopedLisp
