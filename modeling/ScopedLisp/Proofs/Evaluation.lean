import ScopedLisp.Proofs.Operations

/-!
# Evaluation under a simulation

The one place where comparisons unfold the evaluator. If the evaluators of two runs agree on all
expressions that may be evaluated, they agree one level higher, and so by induction on the depth
`eval` agrees with `eval` (`Simulation.eval`) and calls agree with calls (`Simulation.call`). The
second run may be granted more depth than the first.
-/

namespace ScopedLisp

open Eval

namespace Simulation

variable {r : Renaming} {S : Simulation r} {w : S.World} {α β : Type}

theorem simulates_ofExcept {R : S.World → α → β → Prop} {x : Except EvalError α}
    {x' : Except EvalError β} (h : r.Answers (R w) x x') :
    S.Simulates w R (ofExcept x) (ofExcept x') := by
  cases h with
  | ok h => exact simulates_pure h
  | error e => exact simulates_fail e

/-! ## The actions on the store -/

theorem simulates_lookup {f : FrameId} {name : String} (hf : S.Frame w f)
    (hcode : S.Code w (.symbol name)) :
    S.Simulates w S.Same (Eval.lookup f name) (Eval.lookup (r.frame f) name) := by
  intro s t hst
  obtain ⟨hget, hdata⟩ := S.lookup hst hf hcode
  rw [lookup_apply, lookup_apply, hget]
  cases hs : s.get? f name with
  | none => exact .error (e := .unbound name) (S.later_refl w) hst
  | some v => exact .ok (S.later_refl w) hst ⟨hdata v hs, rfl⟩

theorem simulates_define {f : FrameId} {name : String} {expr v v' : Value} (hf : S.Frame w f)
    (hcode : S.Code w (.list [.special .define, .symbol name, expr])) (hv : S.Same w v v') :
    S.Simulates w (fun _ (_ _ : Unit) => True) (Eval.define f name v)
      (Eval.define (r.frame f) name v') := by
  intro s t hst
  obtain ⟨hdata, rfl⟩ := hv
  obtain ⟨w', hw, hst'⟩ := S.define hst hf hcode hdata
  exact .ok hw hst' trivial

theorem simulates_assign {f : FrameId} {name : String} {expr v v' : Value} (hf : S.Frame w f)
    (hcode : S.Code w (.list [.special .assign, .symbol name, expr])) (hv : S.Same w v v') :
    S.Simulates w (fun _ (_ _ : Unit) => True) (Eval.assign f name v)
      (Eval.assign (r.frame f) name v') := by
  intro s t hst
  obtain ⟨hdata, rfl⟩ := hv
  rw [assign_apply, assign_apply]
  rcases S.assign hst hf hcode hdata with ⟨hs, ht⟩ | ⟨w', s', t', hw, hst', hs, ht⟩
  · rw [hs, ht]
    exact .error (e := .unbound name) (S.later_refl w) hst
  · rw [hs, ht]
    exact .ok hw hst' trivial

theorem simulates_enter {id : ClosureId} {params : List String} {body : Value} {home : FrameId}
    {args : List Value} (hclosure : S.Data w (.closure id params body home))
    (hargs : ∀ a ∈ args, S.Data w a) (hlength : args.length = params.length) :
    S.Simulates w (fun w' f f' => S.Frame w' f ∧ f' = r.frame f) (Eval.enter params args home)
      (Eval.enter params (args.map (Value.rename r)) (r.frame home)) := by
  intro s t hst
  obtain ⟨w', hw, hframe, hnext, hst'⟩ := S.enter hst hclosure hargs hlength
  exact .ok hw hst' ⟨hframe, hnext⟩

theorem simulates_close {f : FrameId} {params body : Value} {names : List String}
    (hf : S.Frame w f) (hcode : S.Code w (.list [.special .lambda, params, body]))
    (hnames : parameterNames params = .ok names) :
    S.Simulates w S.Same (Eval.close names body f)
      (Eval.close names (body.rename r) (r.frame f)) := by
  intro s t hst
  obtain ⟨w', hw, hdata, hcount, hst'⟩ := S.close hst hf hcode hnames
  rw [close_apply, close_apply, hcount]
  exact .ok hw (hcount ▸ hst') ⟨hdata, by rw [Value.rename_closure]⟩

/-! ## Forms -/

/-- The two evaluators agree wherever the simulation lets them be used. -/
def Evaluators (S : Simulation r) (ev ev' : Evaluator) : Prop :=
  ∀ {w : S.World} {expr : Value} {f : FrameId}, S.Code w expr → S.Frame w f →
    S.Simulates w S.SameResult (ev expr f) (ev' (expr.rename r) (r.frame f))

variable {ev ev' : Evaluator} {f : FrameId}

theorem simulates_required (hev : S.Evaluators ev ev') {expr : Value} (hcode : S.Code w expr)
    (hf : S.Frame w f) :
    S.Simulates w S.Same (required ev f expr) (required ev' (r.frame f) (expr.rename r)) := by
  refine simulates_bind (hev hcode hf) fun {w'} hw o o' ho => ?_
  obtain ⟨hdata, rfl⟩ := ho
  cases o with
  | none => exact simulates_fail (.type (.noValue expr))
  | some v => exact simulates_pure ⟨hdata v rfl, rfl⟩

theorem answers_targetName (form : SpecialForm) (target : Value) :
    r.Answers (fun name name' => target = .symbol name ∧ name' = name) (targetName form target)
      (targetName form (target.rename r)) := by
  cases target with
  | symbol name => exact .ok ⟨rfl, rfl⟩
  | _ => exact .error (.shape (.target form _))

theorem answers_parameterNames (params : Value) :
    r.Answers (fun names names' => names' = names) (parameterNames params)
      (parameterNames (params.rename r)) := by
  have hone (v : Value) : r.Answers (fun name name' => name' = name) (parameterName v)
      (parameterName (v.rename r)) := by
    cases v with
    | symbol name => exact .ok rfl
    | _ => exact .error (.type (.parameter _))
  have hall (items : List Value) : r.Answers (fun names names' => names' = names)
      (items.mapM parameterName) ((items.map (Value.rename r)).mapM parameterName) := by
    induction items with
    | nil => exact .ok rfl
    | cons v items ih =>
      rw [List.map_cons, List.mapM_cons, List.mapM_cons]
      refine (hone v).bind fun name name' hname => ih.bind fun names names' hnames => ?_
      subst hname hnames
      exact .ok rfl
  cases params with
  | list items =>
    rw [Value.rename_list]
    exact hall items
  | _ => exact .error (.shape (.parameterList _))

theorem simulates_makeLambda {params body : Value} (hf : S.Frame w f)
    (hcode : S.Code w (.list [.special .lambda, params, body])) :
    S.Simulates w S.Same (makeLambda f params body)
      (makeLambda (r.frame f) (params.rename r) (body.rename r)) := by
  have hnames := answers_parameterNames (r := r) params
  unfold makeLambda
  -- that the parameters have these names is needed where the closure is made
  generalize hx : parameterNames params = x at hnames
  generalize parameterNames (params.rename r) = x' at hnames
  cases hnames with
  | ok h =>
    subst h
    exact simulates_close hf hcode hx
  | error e => exact simulates_fail e

theorem simulates_miscounted (form : SpecialForm) (expected : Nat) (operands : List Value) :
    S.Simulates w S.SameResult (miscounted form expected operands.length)
      (miscounted form expected (operands.map (Value.rename r)).length) := by
  rw [List.length_map]
  exact simulates_fail (.shape (.operandCount form expected operands.length))

/-- `define` and `set!` differ in nothing but the action at their end. -/
theorem simulates_binding (hev : S.Evaluators ev ev') {form : SpecialForm} {target expr : Value}
    {act : FrameId → String → Value → Eval Unit}
    (hact : ∀ {w' : S.World} {name v v'}, S.Later w w' → target = .symbol name →
      S.Same w' v v' →
        S.Simulates w' (fun _ (_ _ : Unit) => True) (act f name v) (act (r.frame f) name v'))
    (hcode : S.Code w expr) (hf : S.Frame w f) :
    S.Simulates w S.SameResult
      (do
        let name ← ofExcept (targetName form target)
        let v ← required ev f expr
        act f name v
        pure none)
      (do
        let name ← ofExcept (targetName form (target.rename r))
        let v ← required ev' (r.frame f) (expr.rename r)
        act (r.frame f) name v
        pure none) := by
  have hname := simulates_ofExcept (S := S) (w := w)
    (R := fun _ name name' => target = .symbol name ∧ name' = name)
    (answers_targetName (r := r) form target)
  refine simulates_bind hname fun {w₁} hw₁ name name' htarget => ?_
  obtain ⟨htarget, rfl⟩ := htarget
  have hvalue := simulates_required hev (S.code_later hw₁ hcode) (S.frame_later hw₁ hf)
  refine simulates_bind hvalue fun {w₂} hw₂ v v' hv => ?_
  refine simulates_bind (hact (S.later_trans hw₁ hw₂) htarget hv) fun _ _ _ _ => ?_
  exact simulates_pure .none

/-- **Forms agree** if the evaluators of their operands do. -/
theorem simulates_evalForm (hev : S.Evaluators ev ev') {form : SpecialForm} {operands : List Value}
    (hcode : S.Code w (.list (.special form :: operands))) (hf : S.Frame w f) :
    S.Simulates w S.SameResult (evalForm ev f form operands)
      (evalForm ev' (r.frame f) form (operands.map (Value.rename r))) := by
  have hitems : ∀ expr ∈ operands, S.Code w expr := fun expr hexpr =>
    S.code_items hcode expr (List.mem_cons_of_mem _ hexpr)
  cases form with
  | quote =>
    match operands with
    | [v] => exact simulates_pure (Same.some ⟨S.data_of_code (hitems v (by simp)), rfl⟩)
    | [] => exact simulates_miscounted _ _ []
    | a :: b :: rest => exact simulates_miscounted _ _ (a :: b :: rest)
  | branch =>
    match operands with
    | [test, yes, no] =>
      refine simulates_bind (hev (hitems test (by simp)) hf) fun {w'} hw o o' ho => ?_
      obtain ⟨-, rfl⟩ := ho
      -- truth does not see numbers, so both runs take the same branch
      have htruth : (o.map (Value.rename r)).any Value.isTruthy = o.any Value.isTruthy := by
        cases o <;> simp
      rw [htruth]
      split
      · exact hev (S.code_later hw (hitems yes (by simp))) (S.frame_later hw hf)
      · exact hev (S.code_later hw (hitems no (by simp))) (S.frame_later hw hf)
    | [] => exact simulates_miscounted _ _ []
    | [a] => exact simulates_miscounted _ _ [a]
    | [a, b] => exact simulates_miscounted _ _ [a, b]
    | a :: b :: c :: d :: rest => exact simulates_miscounted _ _ (a :: b :: c :: d :: rest)
  | define =>
    match operands with
    | [target, expr] =>
      refine simulates_binding hev (fun hw htarget hv => ?_) (hitems expr (by simp)) hf
      subst htarget
      exact simulates_define (S.frame_later hw hf) (S.code_later hw hcode) hv
    | [] => exact simulates_miscounted _ _ []
    | [a] => exact simulates_miscounted _ _ [a]
    | a :: b :: c :: rest => exact simulates_miscounted _ _ (a :: b :: c :: rest)
  | assign =>
    match operands with
    | [target, expr] =>
      refine simulates_binding hev (fun hw htarget hv => ?_) (hitems expr (by simp)) hf
      subst htarget
      exact simulates_assign (S.frame_later hw hf) (S.code_later hw hcode) hv
    | [] => exact simulates_miscounted _ _ []
    | [a] => exact simulates_miscounted _ _ [a]
    | a :: b :: c :: rest => exact simulates_miscounted _ _ (a :: b :: c :: rest)
  | lambda =>
    match operands with
    | [params, body] => exact simulates_map (simulates_makeLambda hf hcode) Same.some
    | [] => exact simulates_miscounted _ _ []
    | [a] => exact simulates_miscounted _ _ [a]
    | a :: b :: c :: rest => exact simulates_miscounted _ _ (a :: b :: c :: rest)
  | begin =>
    exact simulates_foldlM
      (fun hw expr hexpr => hev (S.code_later hw (hitems expr hexpr)) (S.frame_later hw hf)) .none

/-! ## Calls -/

theorem apply_of_not_isProcedure {v : Value} (h : v.isProcedure = false) (args : List Value) :
    apply ev v args = fail (.notCallable (.notProcedure v)) := by
  cases v with
  | primitive | closure => cases h
  | _ => simp only [apply]

/-- The calls that `map` makes: one for each item, and each must produce a value. -/
theorem simulates_mapped (procedure : Value) (call call' : Value → Eval (Option Value))
    {items : List Value}
    (hcall : ∀ {w'}, S.Later w w' → ∀ item ∈ items,
      S.Simulates w' S.SameResult (call item) (call' (item.rename r))) :
    S.Simulates w S.SameAll
      (items.mapM fun item => do
        match ← call item with
        | some v => pure v
        | none => fail (.type (.unmapped procedure item)))
      ((items.map (Value.rename r)).mapM fun item => do
        match ← call' item with
        | some v => pure v
        | none => fail (.type (.unmapped (procedure.rename r) item))) := by
  refine simulates_mapM fun hw item hitem => ?_
  refine simulates_bind (hcall hw item hitem) fun _ o o' ho => ?_
  obtain ⟨hdata, rfl⟩ := ho
  cases o with
  | none => exact simulates_fail (.type (.unmapped procedure item))
  | some v => exact simulates_pure ⟨hdata v rfl, rfl⟩

theorem simulates_closure (hev : S.Evaluators ev ev') {id : ClosureId} {params : List String}
    {body : Value} {home : FrameId} {args : List Value}
    (hclosure : S.Data w (.closure id params body home)) (hargs : ∀ a ∈ args, S.Data w a) :
    S.Simulates w S.SameResult (apply ev (.closure id params body home) args)
      (apply ev' ((Value.closure id params body home).rename r) (args.map (Value.rename r))) := by
  rw [Value.rename_closure, apply, apply, List.length_map]
  split
  · next hlength =>
    refine simulates_bind (simulates_enter hclosure hargs hlength) fun hw f f' hf => ?_
    obtain ⟨hf, rfl⟩ := hf
    exact hev (S.code_later hw (S.code_body hclosure)) hf
  · exact simulates_fail (.arity "lambda" params.length args.length)

theorem simulates_applyMap {procedure argument : Value} {home : FrameId}
    (hprocedure : S.Data w procedure) (hargument : S.Data w argument)
    (hone : ∀ {w' item}, S.Data w' procedure → S.Data w' item →
      S.Simulates w' S.SameResult (apply ev procedure [item])
        (apply ev' (procedure.rename r) [item.rename r])) :
    S.Simulates w S.SameResult (apply ev (.primitive .map home) [procedure, argument])
      (apply ev' (.primitive .map home) [procedure.rename r, argument.rename r]) := by
  rw [apply, apply, Value.isProcedure_rename]
  split
  · have hitems := simulates_ofExcept (S := S) (w := w) (R := S.SameAll)
      (answers_toItems Primitive.map.name hargument)
    refine simulates_bind hitems fun hw items items' hsame => ?_
    obtain ⟨hdata, rfl⟩ := hsame
    have hcalls := simulates_mapped procedure (fun item => apply ev procedure [item])
      (fun item => apply ev' (procedure.rename r) [item]) fun hw' item hitem =>
        hone (S.data_later (S.later_trans hw hw') hprocedure) (S.data_later hw' (hdata item hitem))
    refine simulates_bind hcalls fun _ results results' hresults => ?_
    exact simulates_pure hresults.list.some
  · exact simulates_fail (.type (.notProcedure procedure))

/-- **Calls agree** if the evaluators of bodies do. -/
theorem simulates_apply (hev : S.Evaluators ev ev') {procedure : Value} {args : List Value}
    (hprocedure : S.Data w procedure) (hargs : ∀ a ∈ args, S.Data w a) :
    S.Simulates w S.SameResult (apply ev procedure args)
      (apply ev' (procedure.rename r) (args.map (Value.rename r))) := by
  -- a call made by `map` has fewer arguments than the call of `map`
  induction hn : args.length using Nat.strongRecOn generalizing w procedure args with
  | ind n ih =>
    cases procedure with
    | closure id params body home => exact simulates_closure hev hprocedure hargs
    | primitive p home =>
      rw [Value.rename_primitive]
      cases p with
      | operation op =>
        rw [apply, apply]
        exact simulates_map (R := S.Same) (simulates_ofExcept (answers_operation op hargs)) Same.some
      | map =>
        rcases args with _ | ⟨f, _ | ⟨argument, _ | ⟨more, rest⟩⟩⟩
        · rw [List.map_nil]
          simp only [apply]
          exact simulates_fail (.arity Primitive.map.name 2 0)
        · simp only [apply, List.map_nil, List.map_cons]
          exact simulates_fail (.arity Primitive.map.name 2 1)
        · refine simulates_applyMap (hargs f (by simp)) (hargs argument (by simp)) ?_
          intro w' item hf hitem
          have hone : ∀ a ∈ [item], S.Data w' a := fun a ha => List.mem_singleton.mp ha ▸ hitem
          exact ih 1 (by simp [← hn]) hf hone rfl
        · simp only [apply, List.map_cons, List.length_cons, List.length_map]
          exact simulates_fail (.arity Primitive.map.name 2 (rest.length + 3))
    | integer | float | symbol | special | list =>
      rw [apply_of_not_isProcedure rfl, apply_of_not_isProcedure (Value.isProcedure_rename r _)]
      exact simulates_fail (.notCallable (.notProcedure _))

/-! ## Expressions -/

theorem simulates_application (hev : S.Evaluators ev ev') {head : Value} {operands : List Value}
    (hhead : S.Code w head) (hoperands : ∀ expr ∈ operands, S.Code w expr) (hf : S.Frame w f) :
    S.Simulates w S.SameResult
      (do
        match ← ev head f with
        | none => fail (.notCallable (.noValue head))
        | some procedure =>
          let args ← operands.mapM (required ev f)
          apply ev procedure args)
      (do
        match ← ev' (head.rename r) (r.frame f) with
        | none => fail (.notCallable (.noValue (head.rename r)))
        | some procedure =>
          let args ← (operands.map (Value.rename r)).mapM (required ev' (r.frame f))
          apply ev' procedure args) := by
  refine simulates_bind (hev hhead hf) fun {w₁} hw₁ o o' ho => ?_
  obtain ⟨hprocedure, rfl⟩ := ho
  cases o with
  | none => exact simulates_fail (.notCallable (.noValue head))
  | some procedure =>
    have hargs : S.Simulates w₁ S.SameAll (operands.mapM (required ev f))
        ((operands.map (Value.rename r)).mapM (required ev' (r.frame f))) :=
      simulates_mapM fun hw₂ expr hexpr =>
        simulates_required hev (S.code_later (S.later_trans hw₁ hw₂) (hoperands expr hexpr))
          (S.frame_later (S.later_trans hw₁ hw₂) hf)
    refine simulates_bind hargs fun hw₂ args args' hsame => ?_
    obtain ⟨hdata, rfl⟩ := hsame
    exact simulates_apply hev (S.data_later hw₂ (hprocedure procedure rfl)) hdata

/-- **Expressions agree** if the expressions inside them do. -/
theorem evaluators_step (hev : S.Evaluators ev ev') : S.Evaluators (step ev) (step ev') := by
  intro w expr f hcode hf
  cases expr with
  | symbol name => exact simulates_map (simulates_lookup hf hcode) Same.some
  | special form => exact simulates_fail (.shape (.formAsValue form))
  | list exprs =>
    rw [Value.rename_list]
    match exprs with
    | [] => exact simulates_pure .none
    | head :: operands =>
      -- only a reserved word at the head keeps the list from being a call
      cases head with
      | special form => exact simulates_evalForm hev hcode hf
      | _ =>
        have hhead := S.code_items hcode _ List.mem_cons_self
        have hoperands : ∀ expr ∈ operands, S.Code w expr := fun expr hexpr =>
          S.code_items hcode expr (List.mem_cons_of_mem _ hexpr)
        exact simulates_application hev hhead hoperands hf
  | integer | float | primitive =>
    exact simulates_pure (Same.some ⟨S.data_of_code hcode, rfl⟩)
  | closure =>
    rw [Value.rename_closure]
    exact simulates_pure (Same.some ⟨S.data_of_code hcode, Value.rename_closure ..⟩)

/-- `eval` agrees with `eval`, whose depth may be greater. -/
theorem evaluators_eval (S : Simulation r) {depth depth' : Nat} (h : depth ≤ depth') :
    S.Evaluators (eval depth) (eval depth') := by
  induction depth generalizing depth' with
  | zero => exact fun _ _ => simulates_depth _
  | succ depth ih =>
    obtain ⟨depth', rfl⟩ : ∃ n, depth' = n + 1 := ⟨depth' - 1, by omega⟩
    exact evaluators_step (ih (Nat.le_of_succ_le_succ h))

theorem simulates_call (S : Simulation r) {w : S.World} {depth depth' : Nat} (h : depth ≤ depth')
    {procedure : Value} {args : List Value} (hprocedure : S.Data w procedure)
    (hargs : ∀ a ∈ args, S.Data w a) :
    S.Simulates w S.SameResult (call depth procedure args)
      (call depth' (procedure.rename r) (args.map (Value.rename r))) :=
  simulates_apply (S.evaluators_eval h) hprocedure hargs

end Simulation

end ScopedLisp
