import ScopedLisp.Proofs.Depth

/-!
# Domains of primitives

Every primitive answers for every row of arguments, and in the same order: first it counts them,
then it refuses the first from the left that it does not take, and only then it computes. What it
takes at each place is listed in `Primitive.domains`; nothing else can go wrong, except that an
integer is divided by the integer zero, or that `map` goes on to call a procedure.

`Guarded` ties a computation to a refusal. It is closed under doing one thing after the other, where
the first refusal counts, so each operation has it from the few ways in which arguments are taken
apart.
-/

namespace ScopedLisp

open Eval

/-- What a primitive takes at one place. -/
inductive Domain where
  | anything
  | number
  | list
  /-- A list that is not empty. -/
  | items
  | procedure
deriving DecidableEq, Repr

/-- The error of the procedure `name` for a value that is outside. -/
def Domain.refusal? (name : String) : Domain → Value → Option TypeError
  | anything, _ => none
  | number, v => if v.isNumber then none else some (.notNumber name v)
  | list, v => if v.isList then none else some (.notList name v)
  | items, .list [] => some (.emptyList name)
  | items, v => if v.isList then none else some (.notList name v)
  | procedure, v => if v.isProcedure then none else some (.notProcedure v)

/-- The error for the first value that is outside of the domain at its place. -/
def firstRefusal? (name : String) : List Domain → List Value → Option TypeError
  | d :: ds, v :: vs => (d.refusal? name v).or (firstRefusal? name ds vs)
  | _, _ => none

def Unary.domain : Unary → Domain
  | floatFunction _ | abs => .number
  | car | cdr => .items
  | length => .list
  | predicate _ => .anything

def Binary.domains : Binary → List Domain
  | arithmetic _ | comparison _ | pow => [.number, .number]
  | cons => [.anything, .list]
  | eq | equal => [.anything, .anything]

def Operation.domains : Operation → List Domain
  | unary op => [op.domain]
  | binary op => op.domains
  | list => []

/-- What the primitive takes, place by place; `list` takes anything at every place. -/
def Primitive.domains : Primitive → List Domain
  | operation op => op.domains
  | map => [.procedure, .list]

/-- The type error of the primitive for these arguments, if they are as many as it takes. -/
def Primitive.refusal? (p : Primitive) (args : List Value) : Option TypeError :=
  firstRefusal? p.name p.domains args

/-! ## Guarded computations -/

/-- The computation fails with the refusal if there is one, and otherwise it has an answer. -/
def Guarded {α : Type} (refusal : Option TypeError) (x : Except EvalError α) : Prop :=
  match refusal with
  | some cause => x = .error (.type cause)
  | none => ∃ a, x = .ok a

namespace Guarded

variable {α β : Type} {r r' : Option TypeError} {x : Except EvalError α}

theorem ok (a : α) : Guarded none (.ok a : Except EvalError α) := ⟨a, rfl⟩

/-- Of two refusals the first counts. -/
theorem bind {k : α → Except EvalError β} (hx : Guarded r x) (hk : ∀ a, Guarded r' (k a)) :
    Guarded (r.or r') (x >>= k) := by
  cases r with
  | some cause =>
    cases hx
    rfl
  | none =>
    obtain ⟨a, rfl⟩ := hx
    exact hk a

theorem map (hx : Guarded r x) (g : α → β) : Guarded r (g <$> x) := by
  cases r with
  | some cause =>
    cases hx
    rfl
  | none =>
    obtain ⟨a, rfl⟩ := hx
    exact ⟨g a, rfl⟩

end Guarded

theorem guarded_toFloat (name : String) (v : Value) :
    Guarded (Domain.number.refusal? name v) (v.toFloat name) := by
  cases v with
  | integer | float => exact .ok _
  | _ => rfl

theorem guarded_toItems (name : String) (v : Value) :
    Guarded (Domain.list.refusal? name v) (v.toItems name) := by
  cases v with
  | list items => exact .ok items
  | _ => rfl

theorem guarded_uncons (name : String) (v : Value) :
    Guarded (Domain.items.refusal? name v) (v.uncons name) := by
  cases v with
  | list items =>
    cases items with
    | nil => rfl
    | cons first rest => exact .ok (first, rest)
  | _ => rfl

theorem guarded_onFloats {α : Type} (name : String) (a b : Value) (g : Float → Float → α) :
    Guarded (firstRefusal? name [.number, .number] [a, b])
      (do let x ← a.toFloat name; let y ← b.toFloat name; pure (g x y)) := by
  refine (guarded_toFloat name a).bind fun x => ?_
  exact (guarded_toFloat name b).bind fun y => .ok (g x y)

/-! ## Operations -/

theorem Unary.guarded (op : Unary) (v : Value) :
    Guarded (firstRefusal? op.name [op.domain] [v]) (op.run v) := by
  cases op with
  | floatFunction f => exact (guarded_toFloat _ v).bind fun x => .ok _
  | abs =>
    cases v with
    | integer n => exact .ok _
    | _ => exact (guarded_toFloat _ _).bind fun x => .ok _
  | car => exact (guarded_uncons _ v).bind fun p => .ok p.1
  | cdr => exact (guarded_uncons _ v).bind fun p => .ok (Value.list p.2)
  | length => exact (guarded_toItems _ v).bind fun items => .ok _
  | predicate p => exact .ok _

/-- Integers are divided by the integer zero. -/
def Operation.DividesByZero (op : Operation) (args : List Value) : Prop :=
  op = .binary (.arithmetic .div) ∧ ∃ n, args = [.integer n, .integer 0]

theorem Arithmetic.guarded (op : Arithmetic) {a b : Value}
    (h : ¬ (Operation.binary (.arithmetic op)).DividesByZero [a, b]) :
    Guarded (firstRefusal? op.name [.number, .number] [a, b]) (op.run a b) := by
  have hfloats := guarded_onFloats op.name a b fun x y => Value.float (op.onFloats x y)
  cases a with
  | integer m =>
    cases b with
    | integer n =>
      have hrun : ∃ k, op.onIntegers m n = .ok k := by
        cases op with
        | div =>
          have hn : n ≠ 0 := by
            rintro rfl
            exact h ⟨rfl, m, rfl⟩
          rw [onIntegers, if_neg hn]
          exact ⟨_, rfl⟩
        | _ => exact ⟨_, rfl⟩
      obtain ⟨k, hk⟩ := hrun
      refine ⟨.integer k, ?_⟩
      rw [run, hk]
      rfl
    | _ => exact hfloats
  | _ => exact hfloats

theorem Comparison.guarded (op : Comparison) (a b : Value) :
    Guarded (firstRefusal? op.name [.number, .number] [a, b]) (op.run a b) := by
  have hfloats := guarded_onFloats op.name a b Number.compare?
  have horder : Guarded (firstRefusal? op.name [.number, .number] [a, b])
      (order? op.name a b) := by
    cases a with
    | integer m =>
      cases b with
      | integer n => exact .ok _
      | _ => exact hfloats
    | _ => exact hfloats
  exact horder.map fun order => Value.ofBool (order.any op.holds)

theorem Binary.guarded (op : Binary) {a b : Value}
    (h : ¬ (Operation.binary op).DividesByZero [a, b]) :
    Guarded (firstRefusal? op.name op.domains [a, b]) (op.run a b) := by
  cases op with
  | arithmetic f => exact f.guarded h
  | comparison f => exact f.guarded a b
  | pow => exact guarded_onFloats _ a b fun x y => Value.float (x.pow y)
  | cons => exact (guarded_toItems _ b).bind fun items => .ok (Value.list (a :: items))
  | eq => exact .ok _
  | equal => exact .ok _

/-- The right number of arguments, where there is one. -/
def Primitive.Takes (p : Primitive) (args : List Value) : Prop :=
  ∀ n, p.arity? = some n → args.length = n

theorem Operation.guarded (op : Operation) {args : List Value}
    (htakes : (Primitive.operation op).Takes args) (hzero : ¬ op.DividesByZero args) :
    Guarded ((Primitive.operation op).refusal? args) (op.run args) := by
  cases op with
  | unary f =>
    obtain ⟨v, rfl⟩ := List.length_eq_one_iff.mp (htakes 1 rfl)
    exact f.guarded v
  | binary f =>
    obtain ⟨a, b, rfl⟩ := List.length_eq_two.mp (htakes 2 rfl)
    exact f.guarded hzero
  | list => exact .ok _

/-- A division by zero is refused nothing. -/
theorem Operation.DividesByZero.run_eq {op : Operation} {args : List Value}
    (h : op.DividesByZero args) :
    (Primitive.operation op).refusal? args = none ∧ op.run args = .error .divisionByZero := by
  obtain ⟨rfl, n, rfl⟩ := h
  exact ⟨rfl, rfl⟩

theorem Operation.run_of_count {op : Operation} {args : List Value} {n : Nat}
    (harity : op.arity? = some n) (hne : args.length ≠ n) :
    op.run args = .error (.arity op.name n args.length) := by
  cases op with
  | unary f =>
    cases harity
    rw [run]
    · rfl
    · rintro v rfl
      exact hne rfl
  | binary f =>
    cases harity
    rw [run]
    · rfl
    · rintro a b rfl
      exact hne rfl
  | list => cases harity

/-- The type errors of an operation are its refusals. -/
theorem Operation.run_eq_type_iff {op : Operation} {args : List Value} {cause : TypeError}
    (htakes : (Primitive.operation op).Takes args) :
    op.run args = .error (.type cause) ↔ (Primitive.operation op).refusal? args = some cause := by
  by_cases hzero : op.DividesByZero args
  · obtain ⟨hnone, hrun⟩ := hzero.run_eq
    rw [hnone, hrun]
    exact ⟨nofun, nofun⟩
  · have hguarded := op.guarded htakes hzero
    cases hrefusal : (Primitive.operation op).refusal? args with
    | some first =>
      rw [hrefusal] at hguarded
      rw [show op.run args = .error (.type first) from hguarded]
      simp
    | none =>
      rw [hrefusal] at hguarded
      obtain ⟨v, hv⟩ := hguarded
      rw [hv]
      exact ⟨nofun, nofun⟩

/-! ## Primitives -/

/-- What a primitive does, where `call` is how it calls a procedure. Only `map` makes calls. -/
def Primitive.runWith (call : Value → List Value → Eval (Option Value)) :
    Primitive → List Value → Eval (Option Value)
  | operation op, args => some <$> ofExcept (op.run args)
  | map, [g, argument] =>
    if g.isProcedure then do
      let items ← ofExcept (argument.toItems map.name)
      let results ← items.mapM fun item => demanded (.type (.unmapped g item)) (call g [item])
      pure (some (.list results))
    else
      fail (.type (.notProcedure g))
  | map, args => fail (.arity map.name 2 args.length)

theorem apply_primitive (ev : Evaluator) (p : Primitive) (home : FrameId) (args : List Value) :
    apply ev (.primitive p home) args = p.runWith (apply ev) args := by
  cases p with
  | operation op => rw [apply, Primitive.runWith]
  | map =>
    rcases args with _ | ⟨g, _ | ⟨argument, _ | ⟨more, rest⟩⟩⟩
    · simp only [apply, Primitive.runWith]
    · simp only [apply, Primitive.runWith]
    · rw [apply, Primitive.runWith]
      rfl
    · simp only [apply, Primitive.runWith]

variable {p : Primitive} {args : List Value} {s : Store} {cause : TypeError}

theorem Primitive.runWith_of_count {n : Nat} (harity : p.arity? = some n) (hne : args.length ≠ n)
    (call : Value → List Value → Eval (Option Value)) :
    p.runWith call args s = .error (.error (.arity p.name n args.length)) s := by
  cases p with
  | operation op =>
    rw [runWith, Operation.run_of_count harity hne]
    rfl
  | map =>
    cases harity
    rw [runWith]
    · rfl
    · rintro g argument rfl
      exact hne rfl

/-- What `map` refuses is what fails in it whatever a call does. -/
theorem Primitive.runWith_map_iff {g argument : Value} :
    (∀ call, map.runWith call [g, argument] s = .error (.error (.type cause)) s) ↔
      map.refusal? [g, argument] = some cause := by
  have hrefusal : map.refusal? [g, argument] =
      (Domain.procedure.refusal? map.name g).or (Domain.list.refusal? map.name argument) := by
    simp [refusal?, domains, firstRefusal?]
  rw [hrefusal, Domain.refusal?, Domain.refusal?]
  cases hg : g.isProcedure with
  | false =>
    have hrun (call : Value → List Value → Eval (Option Value)) :
        map.runWith call [g, argument] s = .error (.error (.type (.notProcedure g))) s := by
      rw [runWith, hg]
      rfl
    simp [hrun]
  | true =>
    have hitems := guarded_toItems map.name argument
    rw [Domain.refusal?] at hitems
    cases hlist : argument.isList with
    | false =>
      have hrun (call : Value → List Value → Eval (Option Value)) :
          map.runWith call [g, argument] s =
            .error (.error (.type (.notList map.name argument))) s := by
        rw [hlist] at hitems
        rw [runWith, if_pos hg, show argument.toItems map.name = _ from hitems]
        rfl
      simp [hrun]
    | true =>
      rw [hlist] at hitems
      obtain ⟨items, hitems⟩ := hitems
      -- with a call that gets nowhere, no items are the end and the first item is no error
      refine ⟨fun h => ?_, nofun⟩
      have hstuck := h fun _ _ => throw .depth
      rw [runWith, if_pos hg, hitems] at hstuck
      cases items <;> cases hstuck

/-- A type error that a primitive gives whatever its calls do is its refusal. -/
theorem Primitive.runWith_eq_type_iff (htakes : p.Takes args) :
    (∀ call, p.runWith call args s = .error (.error (.type cause)) s) ↔
      p.refusal? args = some cause := by
  cases p with
  | operation op =>
    rw [← Operation.run_eq_type_iff htakes]
    simp only [runWith]
    cases op.run args with
    | ok v =>
      refine ⟨fun h => ?_, nofun⟩
      cases h fun _ _ => throw .depth
    | error e =>
      constructor
      · intro h
        cases h fun _ _ => throw .depth
        rfl
      · intro h call
        cases h
        rfl
  | map =>
    obtain ⟨g, argument, rfl⟩ := List.length_eq_two.mp (htakes 2 rfl)
    exact runWith_map_iff

theorem Primitive.arity?_eq_one_iff (p : Primitive) :
    p.arity? = some 1 ↔ p.name ∈ ["abs", "sin", "cos", "sqrt", "round", "car", "cdr", "length",
      "list?", "null?", "number?", "symbol?", "procedure?"] := by
  have hall : ∀ p ∈ all, p.arity? = some 1 ↔ p.name ∈ ["abs", "sin", "cos", "sqrt", "round", "car",
      "cdr", "length", "list?", "null?", "number?", "symbol?", "procedure?"] := by decide
  exact hall p (mem_all p)

theorem Primitive.arity?_eq_two_iff (p : Primitive) :
    p.arity? = some 2 ↔ p.name ∈ ["+", "-", "*", "/", "<", ">", "<=", ">=", "=", "pow", "cons",
      "map", "eq?", "equal?"] := by
  have hall : ∀ p ∈ all, p.arity? = some 2 ↔ p.name ∈ ["+", "-", "*", "/", "<", ">", "<=", ">=",
      "=", "pow", "cons", "map", "eq?", "equal?"] := by decide
  exact hall p (mem_all p)

theorem Primitive.arity?_eq_none_iff (p : Primitive) : p.arity? = none ↔ p.name = "list" := by
  have hall : ∀ p ∈ all, p.arity? = none ↔ p.name = "list" := by decide
  exact hall p (mem_all p)

/-- **Every primitive has one contract of errors.** A wrong number of arguments is an error that
names the primitive and the number that it takes, whatever the arguments are. With the right number,
the first from the left that is outside of its domain is refused, before anything is divided or
called, and there is no other type error of the primitive. What is left has a value, unless integers
are divided by zero, or `map` goes on to call. So there is no row of arguments without an answer. -/
theorem primitive_contract (p : Primitive) (home : FrameId) (args : List Value) (s : Store) :
    (p.arity? = some 1 ↔ p.name ∈ ["abs", "sin", "cos", "sqrt", "round", "car", "cdr", "length",
      "list?", "null?", "number?", "symbol?", "procedure?"]) ∧
    (p.arity? = some 2 ↔ p.name ∈ ["+", "-", "*", "/", "<", ">", "<=", ">=", "=", "pow", "cons",
      "map", "eq?", "equal?"]) ∧
    (p.arity? = none ↔ p.name = "list") ∧
    (∀ ev, apply ev (.primitive p home) args = p.runWith (apply ev) args) ∧
    (∀ n, p.arity? = some n → args.length ≠ n → ∀ call,
      p.runWith call args s = .error (.error (.arity p.name n args.length)) s) ∧
    (p.Takes args →
      (∀ cause, (∀ call, p.runWith call args s = .error (.error (.type cause)) s) ↔
        p.refusal? args = some cause) ∧
      ∀ op, p = .operation op → p.refusal? args = none →
        (op.DividesByZero args → ∀ call,
          p.runWith call args s = .error (.error .divisionByZero) s) ∧
        (¬ op.DividesByZero args → ∃ v, ∀ call, p.runWith call args s = .ok (some v) s)) := by
  refine ⟨p.arity?_eq_one_iff, p.arity?_eq_two_iff, p.arity?_eq_none_iff,
    fun ev => apply_primitive ev p home args, fun n harity hne => ?_, fun htakes => ⟨?_, ?_⟩⟩
  · exact Primitive.runWith_of_count harity hne
  · exact fun cause => Primitive.runWith_eq_type_iff htakes
  · rintro op rfl hnone
    constructor
    · intro hzero call
      rw [Primitive.runWith, hzero.run_eq.2]
      rfl
    · intro hzero
      have hguarded := op.guarded htakes hzero
      rw [hnone] at hguarded
      obtain ⟨v, hv⟩ := hguarded
      refine ⟨v, fun call => ?_⟩
      rw [Primitive.runWith, hv]
      rfl

/-- In `(/ a 0)` the symbol is refused before the zero is found, in `(map 5 6)` the first of two
wrong arguments, and in `(cons 1 2)` the only one; in `(/ 1 0)` none is. -/
theorem primitive_contract_leftmost (s : Store) :
    let run (p : Primitive) (args : List Value) := p.runWith (fun _ _ => throw .depth) args s
    let div : Primitive := .operation (.binary (.arithmetic .div))
    run div [.symbol "a", .integer 0] = .error (.error (.type (.notNumber "/" (.symbol "a")))) s ∧
      run .map [.integer 5, .integer 6] = .error (.error (.type (.notProcedure (.integer 5)))) s ∧
      run (.operation (.binary .cons)) [.integer 1, .integer 2] =
        .error (.error (.type (.notList "cons" (.integer 2)))) s ∧
      run div [.integer 1, .integer 0] = .error (.error .divisionByZero) s ∧
      run div [.integer 1] = .error (.error (.arity "/" 2 1)) s := by
  intro run div
  have hcontract (p : Primitive) (args : List Value) :=
    (primitive_contract p 0 args s).2.2.2.2
  have htwo {p : Primitive} (hp : p.arity? = some 2) (a b : Value) : p.Takes [a, b] := by
    intro n hn
    rw [hp] at hn
    cases hn
    rfl
  refine ⟨?_, ?_, ?_, ?_, ?_⟩
  · exact (((hcontract div [.symbol "a", .integer 0]).2 (htwo rfl _ _)).1 _).mpr rfl _
  · exact (((hcontract .map [.integer 5, .integer 6]).2 (htwo rfl _ _)).1 _).mpr rfl _
  · exact (((hcontract _ [.integer 1, .integer 2]).2 (htwo rfl _ _)).1 _).mpr rfl _
  · exact (((hcontract div [.integer 1, .integer 0]).2 (htwo rfl _ _)).2 _ rfl rfl).1
      ⟨rfl, 1, rfl⟩ _
  · exact (hcontract div [.integer 1]).1 2 rfl (by decide) _

end ScopedLisp
