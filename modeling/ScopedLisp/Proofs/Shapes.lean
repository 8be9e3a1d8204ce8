import ScopedLisp.Proofs.Binding
import ScopedLisp.Proofs.Visits

/-!
# Forms check their shape first

A form with the wrong number of operands, a definition or an assignment of what is no name, and a
`lambda` whose parameters are not a list of names fail before any operand is evaluated, so the store
is as it was. `Misshapen` says which these are, and they are all: any other form gets as far as its
operands, or has none to evaluate (`misshapen_iff`).

Forms that bind do so at their very end. So no form fails half way: what it has changed by then was
changed by its operands.
-/

namespace ScopedLisp

open Eval

/-- How many operands the form has; `none` for any number. -/
def SpecialForm.operandCount? : SpecialForm → Option Nat
  | quote => some 1
  | branch => some 3
  | define => some 2
  | assign => some 2
  | lambda => some 2
  | begin => none

/-- With these operands the form does not have its shape, and this is the error for it. The count
comes first, and of the parameters of a `lambda` the first that is no name. -/
inductive Misshapen : SpecialForm → List Value → EvalError → Prop
  | count {form : SpecialForm} {expected : Nat} {operands : List Value}
      (hcount : form.operandCount? = some expected) (hne : operands.length ≠ expected) :
      Misshapen form operands (.shape (.operandCount form expected operands.length))
  | target {form : SpecialForm} {target expr : Value} (hform : form = .define ∨ form = .assign)
      (hname : target.isSymbol = false) :
      Misshapen form [target, expr] (.shape (.target form target))
  | parameterList {params body : Value} (hlist : params.isList = false) :
      Misshapen .lambda [params, body] (.shape (.parameterList params))
  | parameter {names : List String} {v body : Value} {rest : List Value}
      (hname : v.isSymbol = false) :
      Misshapen .lambda [.list (names.map .symbol ++ v :: rest), body] (.type (.parameter v))

variable {ev : Evaluator} {f : FrameId} {s s' : Store} {form : SpecialForm} {operands : List Value}
  {e : EvalError}

/-! ## The checks -/

theorem Value.eq_symbol_of_isSymbol {v : Value} (h : v.isSymbol = true) :
    ∃ name, v = .symbol name := by
  cases v with
  | symbol name => exact ⟨name, rfl⟩
  | _ => cases h

theorem targetName_of_not_isSymbol {v : Value} (h : v.isSymbol = false) (form : SpecialForm) :
    targetName form v = .error (.shape (.target form v)) := by
  cases v with
  | symbol => cases h
  | _ => rfl

theorem parameterNames_of_not_isList {v : Value} (h : v.isList = false) :
    parameterNames v = .error (.shape (.parameterList v)) := by
  cases v with
  | list => cases h
  | _ => rfl

/-- A list of parameters is refused for the first item that is no name. -/
theorem mapM_parameterName_eq_error_iff {items : List Value} :
    items.mapM parameterName = .error e ↔
      ∃ names v rest, items = List.map Value.symbol names ++ v :: rest ∧ v.isSymbol = false ∧
        e = .type (.parameter v) := by
  induction items with
  | nil =>
    constructor
    · intro h
      cases h
    · rintro ⟨names, v, rest, h, -⟩
      cases names <;> cases h
  | cons item items ih =>
    cases hitem : item.isSymbol with
    | true =>
      obtain ⟨name, rfl⟩ := Value.eq_symbol_of_isSymbol hitem
      have hrest : (Value.symbol name :: items).mapM parameterName = .error e ↔
          items.mapM parameterName = .error e := by
        rw [List.mapM_cons, parameterName_eq_ok_iff.mpr rfl]
        cases items.mapM parameterName with
        | error e' => exact Iff.rfl
        | ok names => exact ⟨nofun, nofun⟩
      rw [hrest, ih]
      constructor
      · rintro ⟨names, v, rest, rfl, hv⟩
        exact ⟨name :: names, v, rest, rfl, hv⟩
      · rintro ⟨names, v, rest, h, hv⟩
        cases names with
        | nil =>
          cases h
          cases hv.1
        | cons other names =>
          cases h
          exact ⟨names, v, rest, rfl, hv⟩
    | false =>
      have hrefused : (item :: items).mapM parameterName = .error (.type (.parameter item)) := by
        rw [List.mapM_cons]
        cases item with
        | symbol => cases hitem
        | _ => rfl
      rw [hrefused]
      constructor
      · intro h
        cases h
        exact ⟨[], item, items, rfl, hitem, rfl⟩
      · rintro ⟨names, v, rest, h, -, rfl⟩
        cases names with
        | nil =>
          cases h
          rfl
        | cons name names =>
          cases h
          cases hitem

/-- A wrong number of operands is found out first. -/
theorem evalForm_of_count {expected : Nat} (hcount : form.operandCount? = some expected)
    (hne : operands.length ≠ expected) :
    evalForm ev f form operands = miscounted form expected operands.length := by
  cases form with
  | begin => cases hcount
  | quote =>
    cases hcount
    rw [evalForm]
    rintro v rfl
    exact hne rfl
  | branch =>
    cases hcount
    rw [evalForm]
    rintro test yes no rfl
    exact hne rfl
  | define | assign | lambda =>
    cases hcount
    rw [evalForm]
    rintro first second rfl
    exact hne rfl

/-- What is misshapen fails with its error, whatever its operands would do. -/
theorem Misshapen.evalForm_eq (h : Misshapen form operands e) (ev : Evaluator) (f : FrameId) :
    evalForm ev f form operands = fail e := by
  cases h with
  | count hcount hne => exact evalForm_of_count hcount hne
  | target hform hname =>
    rcases hform with rfl | rfl
    · rw [evalForm, targetName_of_not_isSymbol hname]
      rfl
    · rw [evalForm, targetName_of_not_isSymbol hname]
      rfl
  | parameterList hlist =>
    rw [evalForm, makeLambda, parameterNames_of_not_isList hlist]
    rfl
  | @parameter names v body rest hname =>
    have hnames : parameterNames (.list (names.map .symbol ++ v :: rest)) =
        .error (.type (.parameter v)) :=
      mapM_parameterName_eq_error_iff.mpr ⟨names, v, rest, rfl, hname, rfl⟩
    rw [evalForm, makeLambda, hnames]
    rfl

/-- No operand of what is misshapen is evaluated. -/
theorem Misshapen.formVisits_eq (h : Misshapen form operands e) (ev : Evaluator)
    (record : Recorder) (f : FrameId) (s : Store) :
    formVisits ev record f form operands s = [] := by
  cases h with
  | count hcount hne =>
    unfold formVisits
    -- the operands that are evaluated are those of forms with their number of operands
    split
    · cases hcount
      exact absurd rfl hne
    · cases hcount
      exact absurd rfl hne
    · cases hcount
      exact absurd rfl hne
    · cases hcount
    · rfl
  | @target form target expr hform hname =>
    have hbound : boundVisits record f target expr s = [] := by
      cases target with
      | symbol => cases hname
      | _ => rfl
    rcases hform with rfl | rfl
    · exact hbound
    · exact hbound
  | parameterList hlist => rfl
  | parameter hname => rfl

/-- Parameters without names for all of them are those of a misshapen `lambda`. -/
theorem misshapen_of_parameterNames {params : Value} (h : parameterNames params = .error e)
    (body : Value) : Misshapen .lambda [params, body] e := by
  cases params with
  | list items =>
    obtain ⟨names, v, rest, rfl, hname, rfl⟩ := mapM_parameterName_eq_error_iff.mp h
    exact .parameter hname
  | _ =>
    cases h
    exact .parameterList rfl

/-- With operands that cannot be evaluated, a form fails for its shape or not at all. -/
theorem misshapen_of_evalForm (h : evalForm (eval 0) f form operands s = ended (.error e) s') :
    Misshapen form operands e := by
  by_cases hcount : ∀ expected, form.operandCount? = some expected → operands.length = expected
  · have hbinding {target expr : Value} (hform : form = .define ∨ form = .assign)
        (h : evalForm (eval 0) f form [target, expr] s = ended (.error e) s') :
        Misshapen form [target, expr] e := by
      cases hname : target.isSymbol with
      | true =>
        obtain ⟨name, rfl⟩ := Value.eq_symbol_of_isSymbol hname
        rcases hform with rfl | rfl <;> cases h
      | false =>
        have hshape : Misshapen form [target, expr] _ := .target hform hname
        rw [hshape.evalForm_eq] at h
        rw [Except.error.inj (fail_eq_ended_iff.mp h).1]
        exact hshape
    cases form with
    | quote =>
      obtain ⟨v, rfl⟩ := List.length_eq_one_iff.mp (hcount 1 rfl)
      cases h
    | branch =>
      obtain ⟨test, yes, no, rfl⟩ := List.length_eq_three.mp (hcount 3 rfl)
      cases h
    | define =>
      obtain ⟨target, expr, rfl⟩ := List.length_eq_two.mp (hcount 2 rfl)
      exact hbinding (.inl rfl) h
    | assign =>
      obtain ⟨target, expr, rfl⟩ := List.length_eq_two.mp (hcount 2 rfl)
      exact hbinding (.inr rfl) h
    | lambda =>
      obtain ⟨params, body, rfl⟩ := List.length_eq_two.mp (hcount 2 rfl)
      cases hnames : parameterNames params with
      | ok names =>
        rw [evalForm, makeLambda, hnames] at h
        cases h
      | error e' =>
        rw [evalForm, makeLambda, hnames] at h
        cases h
        exact misshapen_of_parameterNames hnames body
    | begin =>
      cases operands with
      | nil => cases h
      | cons => cases h
  · push Not at hcount
    obtain ⟨expected, hexpected, hne⟩ := hcount
    rw [evalForm_of_count hexpected hne] at h
    rw [Except.error.inj (fail_eq_ended_iff.mp h).1]
    exact .count hexpected hne

/-- **What fails for its shape does so before all else**, and nothing else fails so early. -/
theorem misshapen_iff (f : FrameId) (s : Store) :
    Misshapen form operands e ↔
      ∀ ev, step ev (.list (.special form :: operands)) f s = .error (.error e) s := by
  constructor
  · intro h ev
    rw [step, h.evalForm_eq]
    rfl
  · intro h
    exact misshapen_of_evalForm (h (eval 0))

/-! ## All forms -/

/-- **Forms check their shape before they evaluate anything, and bind only if they succeed.** A
misshapen form, and no other, fails whatever evaluation does; it evaluates no operand and leaves the
store as it was. A definition or an assignment that fails leaves the store that its expression has
left: if that expression fails or produces nothing, and for an assignment also if no frame from its
own outward binds the name after the expression. -/
theorem form_checked_first (f : FrameId) (s : Store) :
    (∀ form operands e, Misshapen form operands e ↔
      (∀ ev, step ev (.list (.special form :: operands)) f s = .error (.error e) s) ∧
        ∀ depth, visits (depth + 1) (.list (.special form :: operands)) f s =
          [⟨.list (.special form :: operands), f, s, .error (.error e) s⟩]) ∧
    ∀ name expr,
      (∀ e s',
        Ends (fun depth => eval depth (.list [.special .define, .symbol name, expr]) f) s
            (.error e) s' ↔
          Ends (fun depth => eval depth expr f) s (.error e) s' ∨
            Ends (fun depth => eval depth expr f) s (.ok none) s' ∧ e = .type (.noValue expr)) ∧
      (∀ o s',
        Ends (fun depth => eval depth (.list [.special .define, .symbol name, expr]) f) s
            (.ok o) s' ↔
          o = none ∧ ∃ v s₁, HasValue f expr s v s₁ ∧ s' = s₁.define f name v) ∧
      (∀ e s',
        Ends (fun depth => eval depth (.list [.special .assign, .symbol name, expr]) f) s
            (.error e) s' ↔
          (Ends (fun depth => eval depth expr f) s (.error e) s' ∨
            Ends (fun depth => eval depth expr f) s (.ok none) s' ∧ e = .type (.noValue expr)) ∨
          (∃ v, HasValue f expr s v s') ∧ (∀ g ∈ s'.chain f, s'.binds g name = false) ∧
            e = .unbound name) ∧
      ∀ o s',
        Ends (fun depth => eval depth (.list [.special .assign, .symbol name, expr]) f) s
            (.ok o) s' ↔
          o = none ∧ ∃ v s₁ g, HasValue f expr s v s₁ ∧ s₁.find? f name = some g ∧
            s' = s₁.define g name v := by
  refine ⟨fun form operands e => ?_, fun name expr => ?_⟩
  · constructor
    · intro h
      have hstep := (misshapen_iff f s).mp h
      refine ⟨hstep, fun depth => ?_⟩
      have hparts : partVisits (eval depth) (visits depth) (.list (.special form :: operands)) f s =
          [] := h.formVisits_eq _ _ f s
      rw [visits, hparts, ← hstep (eval depth)]
      rfl
    · intro ⟨hstep, _⟩
      exact (misshapen_iff f s).mpr hstep
  · exact ⟨fun _ _ => ends_define_error_iff, fun _ _ => ends_define_ok_iff,
      fun _ _ => ends_assign_error_iff, fun _ _ => ends_assign_ok_iff⟩

/-- Where nothing binds `x`, `(set! x (begin (define y 1) 2))` fails, but only after its expression
has bound `y`; in `(set! x (begin (define x 1) 2))` the expression binds `x` itself, and the
assignment succeeds. `(lambda (x 1 y) z)` fails for its second parameter. -/
theorem form_checked_first_assign :
    let s := Store.empty.pushEmpty
    let defining (name : String) : Value := .list [.special .begin,
      .list [.special .define, .symbol name, .integer 1], .integer 2]
    Ends (fun depth => eval depth (.list [.special .assign, .symbol "x", defining "y"]) 0) s
        (.error (.unbound "x")) (s.define 0 "y" (.integer 1)) ∧
      Ends (fun depth => eval depth (.list [.special .assign, .symbol "x", defining "x"]) 0) s
        (.ok none) ((s.define 0 "x" (.integer 1)).define 0 "x" (.integer 2)) ∧
      ∀ ev, step ev (.list [.special .lambda,
        .list [.symbol "x", .integer 1, .symbol "y"], .symbol "z"]) 0 s =
          .error (.error (.type (.parameter (.integer 1)))) s := by
  intro s defining
  obtain ⟨hshape, hforms⟩ := form_checked_first 0 s
  obtain ⟨-, -, hfails, -⟩ := hforms "x" (defining "y")
  obtain ⟨-, -, -, hbinds⟩ := hforms "x" (defining "x")
  refine ⟨(hfails _ _).mpr (.inr ⟨⟨.integer 2, 3, rfl⟩, ?_, rfl⟩),
    (hbinds _ _).mpr ⟨rfl, .integer 2, s.define 0 "x" (.integer 1), 0, ⟨3, rfl⟩, ?_, rfl⟩, ?_⟩
  · have houter : (s.define 0 "y" (.integer 1)).outer? 0 = none := rfl
    rw [Store.chain_outermost houter]
    exact List.forall_mem_singleton.mpr rfl
  · exact Store.find?_of_binds rfl
  · have hlambda : Misshapen .lambda
        [.list (["x"].map .symbol ++ .integer 1 :: [.symbol "y"]), .symbol "z"] _ := .parameter rfl
    exact ((hshape _ _ _).mp hlambda).1

end ScopedLisp
