import ScopedLisp.Proofs.Handing
import ScopedLisp.Proofs.Visits

/-!
# Parameters are definitions

A call binds all parameters at once and evaluates the body in the frame that this makes. The same
comes about step by step: in a new frame that binds nothing, inside the frame of the closure, define
the parameters one after the other as their arguments and then evaluate the body. Of equal
parameters the last one counts in both, here because a later definition replaces an earlier one.

The two runs go through different evaluations, but they leave the very same store behind when they
get to the body (`eval_withDefinitions`), so whatever the body does they end alike.
-/

namespace ScopedLisp

open Eval

namespace Value

/-- `(define name (quote v))` -/
def definition (name : String) (v : Value) : Value :=
  .list [.special .define, .symbol name, .list [.special .quote, v]]

/-- `(begin (define p₁ (quote v₁)) … (define pₙ (quote vₙ)) body)` -/
def withDefinitions (params : List String) (args : List Value) (body : Value) : Value :=
  .list (.special .begin :: ((params.zip args).map fun p => definition p.1 p.2) ++ [body])

end Value

/-! ## Definitions in a new frame -/

/-- Defined right after the frame was made, a name could as well have been bound from the start. -/
theorem Store.define_push (s : Store) (b : Bindings) (outer : Option FrameId) (name : String)
    (v : Value) :
    (s.push ⟨b, outer⟩).define s.next name v = s.push ⟨b.insert name v, outer⟩ := by
  have hlast (frame : Frame) (g : Frame → Frame) :
      (s.frames.push frame).modify s.frames.size g = s.frames.push (g frame) := by
    apply Array.ext
    · simp
    · intro i hi hi'
      rw [Array.getElem_modify, Array.getElem_push, Array.getElem_push]
      by_cases hold : i < s.frames.size
      · simp [hold, Nat.ne_of_gt hold]
      · rw [Array.size_push] at hi'
        simp [Nat.le_antisymm (Nat.le_of_lt_succ hi') (Nat.le_of_not_lt hold)]
  exact congrArg (fun frames => { s with frames }) (hlast _ _)

theorem eval_definition (depth : Nat) (name : String) (v : Value) (f : FrameId) (s : Store) :
    eval (depth + 2) (.definition name v) f s = .ok none (s.define f name v) := rfl

/-- Definitions in a row put their names into the new frame in that order. -/
theorem foldlM_definitions (depth : Nat) (pairs : List (String × Value)) (s : Store)
    (b : Bindings) (outer : Option FrameId) :
    (pairs.map fun p => Value.definition p.1 p.2).foldlM
        (fun _ expr => eval (depth + 2) expr s.next) none (s.push ⟨b, outer⟩) =
      .ok none (s.push ⟨pairs.foldl (fun b p => b.insert p.1 p.2) b, outer⟩) := by
  induction pairs generalizing b with
  | nil => rfl
  | cons p pairs ih =>
    rw [List.map_cons, List.foldlM_cons, bind_apply, eval_definition, Store.define_push]
    exact ih (b.insert p.1 p.2)

/-- After the definitions the body is evaluated in the frame that a call would have made. -/
theorem eval_withDefinitions (depth : Nat) (params : List String) (args : List Value)
    (body : Value) (home : FrameId) (s : Store) :
    eval (depth + 3) (.withDefinitions params args body) s.next (s.pushChild home) =
      eval (depth + 2) body s.next (s.pushNested params args home) := by
  have hbegin : eval (depth + 3) (.withDefinitions params args body) s.next (s.pushChild home) =
      (((params.zip args).map fun p => Value.definition p.1 p.2) ++ [body]).foldlM
        (fun _ expr => eval (depth + 2) expr s.next) none (s.pushChild home) := rfl
  rw [hbegin, List.foldlM_append, bind_apply, Store.pushChild, foldlM_definitions]
  simp only [List.foldlM_cons, List.foldlM_nil, bind_pure]
  rfl

/-! ## Calls -/

/-- Called with as many arguments as it has parameters, a closure evaluates its body. -/
theorem call_closure {id : ClosureId} {params : List String} {args : List Value}
    (hlength : args.length = params.length) (depth : Nat) (body : Value) (home : FrameId)
    (s : Store) :
    call depth (.closure id params body home) args s =
      eval depth body s.next (s.pushNested params args home) := by
  rw [call, apply, if_pos hlength, bind_apply, enter_apply]

/-- A closure that a `lambda` makes has the parameters, the body and the frame of that form. -/
theorem eq_closure_of_makeLambda {e : FrameId} {params : List String} {body c : Value}
    {s s' : Store} (h : makeLambda e (.list (params.map .symbol)) body s = .ok c s') :
    c = .closure s.closures params body e := by
  rw [makeLambda, parameterNames_eq_ok_iff.mpr rfl] at h
  cases h
  rfl

/-- **A call is a fresh scope with definitions.** A closure that is given as many arguments as it
has parameters ends as the definitions of the parameters followed by the body do, in a new frame
inside its own, and leaves the same store. Given any other number it fails, with the store as it was
and without an evaluation. -/
theorem call_eq_definitions {e : FrameId} {params : List String} {body c : Value} {s₀ s₁ : Store}
    (hmade : makeLambda e (.list (params.map .symbol)) body s₀ = .ok c s₁) (args : List Value)
    (s : Store) :
    (args.length = params.length → ∀ answer s',
      Ends (fun depth => call depth c args) s answer s' ↔
        Ends (fun depth => eval depth (.withDefinitions params args body) s.next) (s.pushChild e)
          answer s') ∧
    (args.length ≠ params.length → ∀ ev record,
      apply ev c args s = .error (.error (.arity "lambda" params.length args.length)) s ∧
        callVisits ev record c args s = []) := by
  obtain rfl := eq_closure_of_makeLambda hmade
  constructor
  · intro hlength answer s'
    -- with enough depth for the definitions, the two runs are one and the same
    have hsame (depth : Nat) : call (depth + 2) (.closure s₀.closures params body e) args s =
        eval (depth + 3) (.withDefinitions params args body) s.next (s.pushChild e) := by
      rw [call_closure hlength, eval_withDefinitions]
    constructor
    · intro ⟨depth, h⟩
      have hmore := call_stable _ args depth (depth + 2) s answer s' (by omega) h
      exact ⟨depth + 3, (hsame depth).symm.trans hmore⟩
    · intro ⟨depth, h⟩
      have hmore := eval_stable _ s.next depth (depth + 3) (s.pushChild e) answer s' (by omega) h
      exact ⟨depth + 2, (hsame depth).trans hmore⟩
  · intro hlength ev record
    constructor
    · rw [apply, if_neg hlength]
      rfl
    · exact if_neg hlength

/-- A closure whose two parameters have one name returns the second argument, however the name comes
to be bound; with one argument it fails. -/
theorem call_eq_definitions_same_name :
    let s := Store.empty.pushEmpty
    let c : Value := .closure 0 ["x", "x"] (.symbol "x") 0
    let args : List Value := [.integer 1, .integer 2]
    Ends (fun depth => eval depth (.withDefinitions ["x", "x"] args (.symbol "x")) 1)
        (s.pushChild 0) (.ok (some (.integer 2))) (s.pushNested ["x", "x"] args 0) ∧
      ∀ ev, apply ev c [.integer 1] s = .error (.error (.arity "lambda" 2 1)) s := by
  intro s c args
  have hmade : makeLambda 0 (.list (["x", "x"].map .symbol)) (.symbol "x") s =
      .ok c { s with closures := 1 } := rfl
  have hget : (s.pushNested ["x", "x"] args 0).get? 1 "x" = some (.integer 2) :=
    Store.get?_push_self rfl
  have hends : Ends (fun depth => call depth c args) s (.ok (some (.integer 2)))
      (s.pushNested ["x", "x"] args 0) := by
    obtain ⟨depth, hbody⟩ := hasValue_symbol hget
    exact ⟨depth, (call_closure rfl depth _ 0 s).trans hbody⟩
  refine ⟨((call_eq_definitions hmade args s).1 rfl _ _).mp hends, fun ev => ?_⟩
  exact ((call_eq_definitions hmade [.integer 1] s).2 (by decide) ev fun _ _ _ => []).1

end ScopedLisp
