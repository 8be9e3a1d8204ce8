import ScopedLisp.Error
import ScopedLisp.Proofs.Values

/-!
# Renumbering frames and closures

Two runs of the same program may make their frames and closures under different numbers. A
`Renaming` says which number of the one run is which number of the other; it acts on everything
that holds such numbers, that is on values and on the errors that hold values.

A primitive keeps the number of its root frame: roots are not made by evaluation.

No program can see the numbers: the kind of a value, its truth, its text and the text of an error
stay the same.
-/

namespace ScopedLisp

/-- New numbers for frames and for closures. -/
structure Renaming where
  frame : FrameId → FrameId
  closure : ClosureId → ClosureId

/-- Every number stays what it is. -/
def Renaming.id : Renaming := ⟨fun f => f, fun c => c⟩

variable (r : Renaming)

namespace Value

mutual

/-- The value with the new numbers, in bodies of closures too. -/
def rename : Value → Value
  | closure id params body home => closure (r.closure id) params (rename body) (r.frame home)
  | list items => list (renameAll items)
  | v => v

def renameAll : List Value → List Value
  | [] => []
  | v :: rest => rename v :: renameAll rest

end

theorem renameAll_eq_map (items : List Value) : renameAll r items = items.map (rename r) := by
  induction items with
  | nil => simp [renameAll]
  | cons v rest ih => simp [renameAll, ih]

@[simp] theorem rename_integer (n : Int64) : (integer n).rename r = integer n := rfl

@[simp] theorem rename_float (x : Float) : (float x).rename r = float x := rfl

@[simp] theorem rename_symbol (name : String) : (symbol name).rename r = symbol name := rfl

@[simp] theorem rename_special (form : SpecialForm) : (special form).rename r = special form := rfl

@[simp] theorem rename_primitive (p : Primitive) (home : FrameId) :
    (primitive p home).rename r = primitive p home := rfl

@[simp] theorem rename_closure (id : ClosureId) (params : List String) (body : Value)
    (home : FrameId) : (closure id params body home).rename r =
      closure (r.closure id) params (body.rename r) (r.frame home) := by
  rw [rename]

@[simp] theorem rename_list (items : List Value) :
    (list items).rename r = list (items.map (rename r)) := by
  rw [rename, renameAll_eq_map]

theorem rename_id (v : Value) : v.rename .id = v := by
  induction v using treeInduction with
  | integer | float | symbol | special | primitive => rfl
  | list items ih =>
    have hitems : items.map (rename .id) = items.map id := List.map_congr_left ih
    rw [rename_list, hitems, List.map_id]
  | closure id params body home ih => rw [rename_closure, ih]; rfl

/-- Only the numbers that occur in a value matter for it. -/
theorem rename_congr {r₁ r₂ : Renaming} {v : Value}
    (h : EveryClosure (fun id _ _ home =>
      r₁.closure id = r₂.closure id ∧ r₁.frame home = r₂.frame home) v) :
    v.rename r₁ = v.rename r₂ := by
  induction v using treeInduction with
  | integer | float | symbol | special | primitive => rfl
  | list items ih =>
    have hitems := everyClosure_list.mp h
    rw [rename_list, rename_list, List.map_congr_left fun v hv => ih v hv (hitems v hv)]
  | closure id params body home ih =>
    obtain ⟨⟨hclosure, hframe⟩, hbody⟩ := everyClosure_closure.mp h
    rw [rename_closure, rename_closure, hclosure, hframe, ih hbody]

/-! ## What the numbers do not change -/

@[simp] theorem typeName_rename (v : Value) : (v.rename r).typeName = v.typeName := by
  cases v <;> rfl

@[simp] theorem isTruthy_rename (v : Value) : (v.rename r).isTruthy = v.isTruthy := by
  cases v with
  | list items => cases items <;> rfl
  | _ => rfl

@[simp] theorem isNumber_rename (v : Value) : (v.rename r).isNumber = v.isNumber := by
  cases v <;> rfl

@[simp] theorem isSymbol_rename (v : Value) : (v.rename r).isSymbol = v.isSymbol := by
  cases v <;> rfl

@[simp] theorem isList_rename (v : Value) : (v.rename r).isList = v.isList := by
  cases v <;> rfl

@[simp] theorem isNull_rename (v : Value) : (v.rename r).isNull = v.isNull := by
  cases v with
  | list items => cases items <;> rfl
  | _ => rfl

@[simp] theorem isProcedure_rename (v : Value) : (v.rename r).isProcedure = v.isProcedure := by
  cases v <;> rfl

@[simp] theorem render_rename (v : Value) : (v.rename r).render = v.render := by
  induction v using treeInduction with
  | integer | float | symbol | special | primitive => rfl
  | list items ih =>
    have hitems : (items.map (rename r)).map render = items.map render := by
      rw [List.map_map]
      exact List.map_congr_left ih
    rw [rename_list, render, render, renderAll_eq_map, renderAll_eq_map, hitems]
  | closure id params body home => rw [rename_closure, render, render]

@[simp] theorem described_rename (v : Value) : (v.rename r).described = v.described := by
  simp [described]

end Value

/-! ## Errors -/

def TypeError.rename : TypeError → TypeError
  | noValue expr => noValue (expr.rename r)
  | notNumber procedure found => notNumber procedure (found.rename r)
  | notList procedure found => notList procedure (found.rename r)
  | emptyList procedure => emptyList procedure
  | notProcedure found => notProcedure (found.rename r)
  | unmapped procedure item => unmapped (procedure.rename r) (item.rename r)
  | parameter found => parameter (found.rename r)

def CallError.rename : CallError → CallError
  | noValue head => noValue (head.rename r)
  | notProcedure found => notProcedure (found.rename r)

def ShapeError.rename : ShapeError → ShapeError
  | target form found => target form (found.rename r)
  | parameterList found => parameterList (found.rename r)
  | e => e

def EvalError.rename : EvalError → EvalError
  | type cause => type (cause.rename r)
  | notCallable cause => notCallable (cause.rename r)
  | shape cause => shape (cause.rename r)
  | e => e

theorem TypeError.message_rename (e : TypeError) : (e.rename r).message = e.message := by
  cases e with
  | emptyList procedure => rfl
  | noValue expr => exact congrArg (· ++ " produced no value") (expr.render_rename r)
  | notNumber procedure found =>
    exact congrArg (procedure ++ " expects numbers, found " ++ ·) (found.described_rename r)
  | notList procedure found =>
    exact congrArg (procedure ++ " expects a list, found " ++ ·) (found.described_rename r)
  | notProcedure found =>
    exact congrArg ("map expects a procedure, found " ++ ·) (found.described_rename r)
  | unmapped procedure item =>
    show "map: " ++ (procedure.rename r).render ++ " produced no value for " ++
      (item.rename r).render = _
    rw [Value.render_rename, Value.render_rename]
    rfl
  | parameter found =>
    exact congrArg ("lambda parameter must be a symbol, found " ++ ·) (found.described_rename r)

theorem CallError.message_rename (e : CallError) : (e.rename r).message = e.message := by
  cases e with
  | noValue head => exact congrArg (· ++ " produced no value") (head.render_rename r)
  | notProcedure found => exact found.described_rename r

theorem ShapeError.message_rename (e : ShapeError) : (e.rename r).message = e.message := by
  cases e with
  | formAsValue | operandCount => rfl
  | target form found =>
    exact congrArg (form.name ++ " target must be a symbol, found " ++ ·) (found.render_rename r)
  | parameterList found =>
    exact congrArg ("lambda expects a parameter list, found " ++ ·) (found.render_rename r)

/-- An error reads the same whatever the numbers are. -/
theorem EvalError.message_rename (e : EvalError) : (e.rename r).message = e.message := by
  cases e with
  | type cause => exact congrArg ("type error: " ++ ·) (cause.message_rename r)
  | notCallable cause =>
    exact congrArg ("expected a callable value, found " ++ ·) (cause.message_rename r)
  | shape cause => exact congrArg ("invalid expression: " ++ ·) (cause.message_rename r)
  | unreadable | unbound | arity | divisionByZero => rfl

theorem EvalError.rename_id (e : EvalError) : e.rename .id = e := by
  cases e with
  | type cause => cases cause <;> simp [rename, TypeError.rename, Value.rename_id]
  | notCallable cause => cases cause <;> simp [rename, CallError.rename, Value.rename_id]
  | shape cause => cases cause <;> simp [rename, ShapeError.rename, Value.rename_id]
  | _ => rfl

end ScopedLisp
