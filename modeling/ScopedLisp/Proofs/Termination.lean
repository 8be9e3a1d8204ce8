import ScopedLisp.Proofs.Application
import ScopedLisp.Proofs.Confinement
import ScopedLisp.Proofs.Identity

/-!
# Without closures every run ends

Evaluation runs forever only by way of closures: a call of one evaluates its body, which is no part
of the expression that makes the call. Without any, each evaluation inside another is one of a part
of the expression, so the expression is what a run is measured by, and it needs as much depth as
its lists are nested.

Calls of primitives evaluate nothing. `map` calls on, but with one argument, and with one argument
`map` itself is an error; so whatever procedures names have come to stand for, a call is at most two
calls deep.

That there are no closures has to last, for what a name stands for changes during a run. No form but
`lambda` makes one, no operation makes one from arguments that hold none, and what is bound is an
answer of the run; `Store.KeepsFree` is what is kept.
-/

namespace ScopedLisp

open Eval

/-! ## Values and stores without closures -/

namespace Value

mutual

/-- How deep lists are nested in the value, itself included. Bodies of closures do not count. -/
def nesting : Value → Nat
  | list items => nestingAll items + 1
  | _ => 1

/-- The greatest nesting of an item. -/
def nestingAll : List Value → Nat
  | [] => 0
  | v :: rest => max v.nesting (nestingAll rest)

end

theorem nesting_le_nestingAll {v : Value} {items : List Value} (h : v ∈ items) :
    v.nesting ≤ nestingAll items := by
  induction items with
  | nil => cases h
  | cons w items ih =>
    rw [nestingAll]
    rcases List.mem_cons.mp h with rfl | h
    · exact Nat.le_max_left ..
    · exact Nat.le_trans (ih h) (Nat.le_max_right ..)

theorem nesting_pos (v : Value) : 0 < v.nesting := by
  cases v with
  | list items => exact Nat.succ_pos _
  | _ => exact Nat.zero_lt_one

/-- No closure occurs in the value. -/
abbrev ClosureFree (v : Value) : Prop := v.EveryProcedure fun x => ¬ x.IsLambda

theorem closureFree_primitive (op : Primitive) (home : FrameId) :
    (primitive op home).ClosureFree := by
  intro x hx _ hlambda
  cases hx
  obtain ⟨_, _, _, _, heq⟩ := hlambda
  cases heq

theorem ClosureFree.not_captures {v : Value} (h : v.ClosureFree) (home : FrameId) :
    ¬ v.Captures home := by
  rintro ⟨id, params, body, hx⟩
  exact h _ hx rfl ⟨id, params, body, home, rfl⟩

theorem ClosureFree.toItems {v : Value} (h : v.ClosureFree) {name : String} {items : List Value}
    (hitems : v.toItems name = .ok items) : ∀ x ∈ items, x.ClosureFree := by
  cases v with
  | list =>
    cases hitems
    exact everyProcedure_list.mp h
  | _ => cases hitems

end Value

namespace Store

/-- No closure is among the values, and none is bound in a frame that these frames and values
reach. -/
structure ClosureFree (s : Store) (frames : List FrameId) (values : List Value) : Prop where
  given : ∀ v ∈ values, v.ClosureFree
  bound : s.AllBound fun f _ v => s.Reaches frames values f → v.ClosureFree

/-- What a run from `s` keeps: there are as many frames as in `s`, as many closures have been made,
and none of them is bound in `R`, where all scopes of `R` lie too. -/
structure KeepsFree (s : Store) (R : FrameId → Prop) (t : Store) : Prop where
  next : t.next = s.next
  closures : t.closures = s.closures
  outward : ∀ {f o}, R f → t.outer? f = some o → R o
  bound : t.AllBound fun f _ v => R f → v.ClosureFree

variable {s t : Store} {R : FrameId → Prop} {f : FrameId} {name : String} {v : Value}

theorem ClosureFree.keepsFree {frames : List FrameId} {values : List Value}
    (h : s.ClosureFree frames values) : s.KeepsFree (s.Reaches frames values) s where
  next := rfl
  closures := rfl
  outward := .outer
  bound := h.bound

/-- Frames of `R` reach frames of `R` only. -/
theorem KeepsFree.closureFree (h : s.KeepsFree R t) (hf : R f) : t.ClosureFree [f] [] := by
  have hreach {g : FrameId} (hg : t.Reaches [f] [] g) : R g := by
    induction hg with
    | frame hg => exact List.mem_singleton.mp hg ▸ hf
    | value hv => cases hv
    | outer _ ho ih => exact h.outward ih ho
    | bound _ hv hcaptures ih => exact ((h.bound _ _ _ hv ih).not_captures _ hcaptures).elim
  exact ⟨nofun, h.bound.mono fun hfree hg => hfree (hreach hg)⟩

theorem KeepsFree.define (h : s.KeepsFree R t) (hv : v.ClosureFree) :
    s.KeepsFree R (t.define f name v) where
  next := (next_define ..).trans h.next
  closures := h.closures
  outward hg ho := h.outward hg (outer?_define .. ▸ ho)
  bound := h.bound.define fun _ => hv

/-- What is seen from a frame of `R` is bound in `R`. -/
theorem KeepsFree.get? (h : s.KeepsFree R t) (hf : R f) (hget : t.get? f name = some v) :
    v.ClosureFree := by
  obtain ⟨g, hg, hfree⟩ := h.bound.get? hget
  exact hfree (forall_mem_chain h.outward hf g hg)

end Store

/-! ## Computations that end -/

/-- Whatever store with `I` the computation starts from, it is not cut off. It keeps `I`, and a
result is one that `D` allows. -/
def Eval.Completes {α : Type} (I : Store → Prop) (m : Eval α) (D : α → Prop) : Prop :=
  ∀ s, I s → ∃ answer s', m s = ended answer s' ∧ I s' ∧ ∀ a, answer = .ok a → D a

section

variable {α β : Type} {I : Store → Prop} {m : Eval α} {k : α → Eval β} {D : α → Prop}
  {E : β → Prop}

theorem completes_pure {a : α} (h : D a) : Completes I (pure a) D :=
  fun s hs => ⟨.ok a, s, rfl, hs, fun _ hb => Except.ok.inj hb ▸ h⟩

theorem completes_fail (e : EvalError) : Completes I (fail e : Eval α) D :=
  fun s hs => ⟨.error e, s, rfl, hs, nofun⟩

theorem completes_ofExcept {x : Except EvalError α} (h : ∀ a, x = .ok a → D a) :
    Completes I (ofExcept x) D := by
  cases x with
  | ok a => exact completes_pure (h a rfl)
  | error e => exact completes_fail e

theorem Eval.Completes.bind (hm : Completes I m D) (hk : ∀ a, D a → Completes I (k a) E) :
    Completes I (m >>= k) E := by
  intro s hs
  obtain ⟨first, t, hfirst, ht, hD⟩ := hm s hs
  cases first with
  | error e => exact ⟨.error e, t, bind_eq_ended_iff.mpr (.inl ⟨e, rfl, hfirst⟩), ht, nofun⟩
  | ok a =>
    obtain ⟨answer, u, hrest, hu, hE⟩ := hk a (hD a rfl) t ht
    exact ⟨answer, u, bind_eq_ended_iff.mpr (.inr ⟨a, t, hfirst, hrest⟩), hu, hE⟩

theorem Eval.Completes.map {g : α → β} (hm : Completes I m D) (hg : ∀ a, D a → E (g a)) :
    Completes I (g <$> m) E := by
  rw [map_eq_pure_bind]
  exact hm.bind fun a ha => completes_pure (hg a ha)

theorem completes_mapM {run : α → Eval β} {items : List α}
    (h : ∀ a ∈ items, Completes I (run a) E) :
    Completes I (items.mapM run) fun bs => ∀ b ∈ bs, E b := by
  induction items with
  | nil => exact completes_pure nofun
  | cons a items ih =>
    rw [List.mapM_cons]
    refine (h a List.mem_cons_self).bind fun b hb => ?_
    refine (ih fun a ha => h a (List.mem_cons_of_mem _ ha)).bind fun bs hbs => ?_
    exact completes_pure (List.forall_mem_cons.mpr ⟨hb, hbs⟩)

theorem completes_foldlM {run : α → Eval β} {items : List α} {b : β}
    (h : ∀ a ∈ items, Completes I (run a) E) (hb : E b) :
    Completes I (items.foldlM (fun _ a => run a) b) E := by
  induction items generalizing b with
  | nil => exact completes_pure hb
  | cons a items ih =>
    rw [List.foldlM_cons]
    refine (h a List.mem_cons_self).bind fun b hb => ?_
    exact ih (fun a ha => h a (List.mem_cons_of_mem _ ha)) hb

end

/-! ## Calls -/

section Calls

variable {I : Store → Prop}

/-- What an evaluation answers, if anything, holds no closure. -/
abbrev FreeAnswer (o : Option Value) : Prop := AnswerOf (fun x => ¬ x.IsLambda) o

/-- Where a value is required, nothing is an error. -/
theorem completes_demanded (nothing : EvalError) {m : Eval (Option Value)}
    (hm : Completes I m FreeAnswer) : Completes I (demanded nothing m) Value.ClosureFree := by
  refine hm.bind fun o ho => ?_
  cases o with
  | none => exact completes_fail nothing
  | some v => exact completes_pure (ho v rfl)

theorem completes_operation (ev : Evaluator) {op : Operation} {home : FrameId} {args : List Value}
    (hargs : ∀ a ∈ args, a.ClosureFree) :
    Completes I (apply ev (.primitive (.operation op) home) args) FreeAnswer := by
  rw [apply]
  refine (completes_ofExcept fun v hv => ?_).map fun v hv => .some hv
  exact Operation.everyProcedure hargs hv

/-- With one argument `map` goes no farther. -/
theorem apply_map_one (ev : Evaluator) (home : FrameId) (item : Value) :
    apply ev (.primitive .map home) [item] = fail (.arity Primitive.map.name 2 1) := by
  simp only [apply]
  rfl

/-- So the calls that `map` makes end. -/
theorem completes_apply_one (ev : Evaluator) {g item : Value} (hg : g.ClosureFree)
    (hitem : item.ClosureFree) : Completes I (apply ev g [item]) FreeAnswer := by
  cases g with
  | closure id params body home => exact (hg.self rfl ⟨id, params, body, home, rfl⟩).elim
  | primitive op home =>
    cases op with
    | operation op => exact completes_operation ev (by simpa using hitem)
    | map =>
      rw [apply_map_one]
      exact completes_fail _
  | integer | float | symbol | special | list =>
    rw [Simulation.apply_of_not_isProcedure rfl]
    exact completes_fail _

theorem completes_map (ev : Evaluator) {g argument : Value} {home : FrameId} (hg : g.ClosureFree)
    (hargument : argument.ClosureFree) :
    Completes I (apply ev (.primitive .map home) [g, argument]) FreeAnswer := by
  rw [apply]
  split
  · refine (completes_ofExcept fun items => hargument.toItems).bind fun items hitems => ?_
    have hresults : Completes I (items.mapM (mapItem ev g)) fun vs => ∀ v ∈ vs, v.ClosureFree :=
      completes_mapM fun v hv => completes_demanded _ (completes_apply_one ev hg (hitems v hv))
    exact hresults.bind fun results hall =>
      completes_pure (.some (Value.everyProcedure_list.mpr hall))
  · exact completes_fail _

/-- **A call without closures ends**, whatever bodies of closures would be evaluated by. -/
theorem completes_apply (ev : Evaluator) {procedure : Value} {args : List Value}
    (hprocedure : procedure.ClosureFree) (hargs : ∀ a ∈ args, a.ClosureFree) :
    Completes I (apply ev procedure args) FreeAnswer := by
  cases procedure with
  | closure id params body home =>
    exact (hprocedure.self rfl ⟨id, params, body, home, rfl⟩).elim
  | primitive op home =>
    cases op with
    | operation op => exact completes_operation ev hargs
    | map =>
      match args with
      | [g, argument] => exact completes_map ev (hargs g (by simp)) (hargs argument (by simp))
      | [] | [_] | _ :: _ :: _ :: _ =>
        simp only [apply]
        exact completes_fail _
  | integer | float | symbol | special | list =>
    rw [Simulation.apply_of_not_isProcedure rfl]
    exact completes_fail _

end Calls

/-! ## Expressions -/

section Expressions

variable {s : Store} {R : FrameId → Prop} {f : FrameId} {ev : Evaluator}

theorem completes_lookup (hf : R f) (name : String) :
    Completes (s.KeepsFree R) (lookup f name) Value.ClosureFree := by
  intro t ht
  rw [lookup_apply]
  cases hget : t.get? f name with
  | none => exact ⟨.error (.unbound name), t, rfl, ht, nofun⟩
  | some v => exact ⟨.ok v, t, rfl, ht, fun _ h => Except.ok.inj h ▸ ht.get? hf hget⟩

theorem completes_define (name : String) {v : Value} (hv : v.ClosureFree) :
    Completes (s.KeepsFree R) (Eval.define f name v) fun _ => True :=
  fun _ ht => ⟨.ok (), _, rfl, ht.define hv, fun _ _ => .intro⟩

theorem completes_assign (name : String) {v : Value} (hv : v.ClosureFree) :
    Completes (s.KeepsFree R) (Eval.assign f name v) fun _ => True := by
  intro t ht
  rw [assign_apply, Store.set?]
  cases t.find? f name with
  | none => exact ⟨.error (.unbound name), t, rfl, ht, nofun⟩
  | some g => exact ⟨.ok (), _, rfl, ht.define hv, fun _ _ => .intro⟩

/-- In frame `f` the evaluator completes on the expression. -/
abbrev Evaluator.CompletesOn (ev : Evaluator) (I : Store → Prop) (f : FrameId) (expr : Value) :
    Prop :=
  Completes I (ev expr f) FreeAnswer

theorem completes_required {I : Store → Prop} {expr : Value} (hev : ev.CompletesOn I f expr) :
    Completes I (required ev f expr) Value.ClosureFree :=
  completes_demanded _ hev

theorem completes_binding {I : Store → Prop} {form : SpecialForm} {target expr : Value}
    {act : String → Value → Eval Unit} (hev : ev.CompletesOn I f expr)
    (hact : ∀ name v, v.ClosureFree → Completes I (act name v) fun _ => True) :
    Completes I
      (do
        let name ← ofExcept (targetName form target)
        let v ← required ev f expr
        act name v
        pure none) FreeAnswer := by
  have hname : Completes I (ofExcept (targetName form target)) fun _ => True :=
    completes_ofExcept fun _ _ => .intro
  refine hname.bind fun name _ => ?_
  refine (completes_required hev).bind fun v hv => ?_
  exact (hact name v hv).bind fun _ _ => completes_pure .none

/-- A form that is no `lambda` completes if its operands do. -/
theorem completes_evalForm {form : SpecialForm} (hlambda : form ≠ .lambda) {operands : List Value}
    (hfree : ∀ v ∈ operands, v.ClosureFree)
    (hev : ∀ v ∈ operands, ev.CompletesOn (s.KeepsFree R) f v) :
    Completes (s.KeepsFree R) (evalForm ev f form operands) FreeAnswer := by
  cases form with
  | lambda => exact absurd rfl hlambda
  | quote =>
    match operands with
    | [v] => exact completes_pure (.some (hfree v (by simp)))
    | [] | _ :: _ :: _ => exact completes_fail _
  | branch =>
    match operands with
    | [test, yes, no] =>
      refine (hev test (by simp)).bind fun answer _ => ?_
      split
      · exact hev yes (by simp)
      · exact hev no (by simp)
    | [] | [_] | [_, _] | _ :: _ :: _ :: _ :: _ => exact completes_fail _
  | define =>
    match operands with
    | [target, expr] =>
      exact completes_binding (hev expr (by simp)) fun name v hv => completes_define name hv
    | [] | [_] | _ :: _ :: _ :: _ => exact completes_fail _
  | assign =>
    match operands with
    | [target, expr] =>
      exact completes_binding (hev expr (by simp)) fun name v hv => completes_assign name hv
    | [] | [_] | _ :: _ :: _ :: _ => exact completes_fail _
  | begin => exact completes_foldlM hev .none

theorem completes_application {I : Store → Prop} {head : Value} {operands : List Value}
    (hhead : ev.CompletesOn I f head) (hoperands : ∀ v ∈ operands, ev.CompletesOn I f v) :
    Completes I (ev head f >>= applied ev f head operands) FreeAnswer := by
  refine hhead.bind fun answer hanswer => ?_
  cases answer with
  | none => exact completes_fail _
  | some procedure =>
    refine Completes.bind (completes_mapM fun v hv => completes_required (hoperands v hv)) ?_
    exact fun args hargs => completes_apply ev (hanswer procedure rfl) hargs

/-- **One step completes if the steps inside it do.** -/
theorem completes_step (hf : R f) {expr : Value} (hfree : expr.ClosureFree)
    (hlambda : ¬ Value.Occurs (.special .lambda) expr)
    (hev : ∀ items, expr = .list items → ∀ v ∈ items, ev.CompletesOn (s.KeepsFree R) f v) :
    Completes (s.KeepsFree R) (step ev expr f) FreeAnswer := by
  cases expr with
  | integer | float | primitive | closure => exact completes_pure (.some hfree)
  | symbol name => exact (completes_lookup hf name).map fun _ hv => .some hv
  | special form => exact completes_fail _
  | list exprs =>
    have hitems := Value.everyProcedure_list.mp hfree
    match exprs with
    | [] => exact completes_pure .none
    | head :: operands =>
      have hoperands : ∀ v ∈ operands, ev.CompletesOn (s.KeepsFree R) f v := fun v hv =>
        hev _ rfl v (List.mem_cons_of_mem _ hv)
      by_cases hform : ∃ form, head = .special form
      · obtain ⟨form, rfl⟩ := hform
        refine completes_evalForm ?_ (fun v hv => hitems v (List.mem_cons_of_mem _ hv)) hoperands
        rintro rfl
        exact hlambda (.item List.mem_cons_self .self)
      · rw [step_application fun form heq => hform ⟨form, heq⟩]
        exact completes_application (hev _ rfl head List.mem_cons_self) hoperands

/-- **Evaluation completes at the depth to which the expression is nested.** -/
theorem completes_eval (hf : R f) {expr : Value} (hfree : expr.ClosureFree)
    (hlambda : ¬ Value.Occurs (.special .lambda) expr) {depth : Nat}
    (hdepth : expr.nesting ≤ depth) :
    (eval depth).CompletesOn (s.KeepsFree R) f expr := by
  induction depth generalizing expr with
  | zero => exact absurd expr.nesting_pos (Nat.not_lt.mpr hdepth)
  | succ depth ih =>
    refine completes_step hf hfree hlambda ?_
    rintro items rfl v hv
    have hle : v.nesting ≤ depth :=
      Nat.le_trans (Value.nesting_le_nestingAll hv) (Nat.le_of_succ_le_succ hdepth)
    exact ih (Value.everyProcedure_list.mp hfree v hv) (fun h => hlambda (.item hv h)) hle

end Expressions

/-- **Without `lambda` every program terminates.** If the word is nowhere in an expression, and no
closure can be reached from it and the frame, then evaluation ends, within the depth to which the
expression is nested and the same way within every greater one. It makes no frame and no closure;
its answer holds none, and none can be reached from the frame afterwards. -/
theorem terminates_without_lambda {expr : Value} {f : FrameId} {s : Store}
    (hlambda : ¬ Value.Occurs (.special .lambda) expr) (hfree : s.ClosureFree [f] [expr]) :
    ∃ answer s', (∀ depth, expr.nesting ≤ depth → eval depth expr f s = ended answer s') ∧
      (∀ v, answer = .ok (some v) → v.ClosureFree) ∧ s'.next = s.next ∧
      s'.closures = s.closures ∧ s'.ClosureFree [f] [] := by
  have hexpr : expr.ClosureFree := hfree.given expr List.mem_cons_self
  have hf : s.Reaches [f] [expr] f := .frame List.mem_cons_self
  obtain ⟨answer, s', hrun, hkeeps, hanswer⟩ :=
    completes_eval hf hexpr hlambda (Nat.le_refl _) s hfree.keepsFree
  refine ⟨answer, s', fun depth hle => ?_, fun v hv => ?_, hkeeps.next, hkeeps.closures, ?_⟩
  · exact eval_stable expr f _ depth s answer s' hle hrun
  · exact hanswer _ hv v rfl
  · exact hkeeps.closureFree hf

/-- The name `m` has come to stand for `map`, and is mapped over two items. `map` is called again,
with the first of them alone; that is an error, and the end. -/
theorem terminates_without_lambda_map :
    let map : Value := .primitive .map 0
    let s := Store.empty.pushRoot.define 0 "m" map
    let expr : Value := .list [.symbol "m", .symbol "m",
      .list [.special .quote, .list [.integer 1, .integer 2]]]
    expr.nesting = 4 ∧ s.ClosureFree [0] [] ∧
      ∀ depth, 4 ≤ depth → eval depth expr 0 s = ended (.error (.arity "map" 2 1)) s := by
  intro map s expr
  have hmap : map.ClosureFree := Value.closureFree_primitive .map 0
  have hexpr : expr.ClosureFree := by
    simp [expr, Value.everyProcedure_list, Value.everyProcedure_leaf (v := .symbol _) rfl rfl,
      Value.everyProcedure_leaf (v := .special _) rfl rfl,
      Value.everyProcedure_leaf (v := .integer _) rfl rfl]
  have hroot : Store.empty.pushRoot.EveryProcedure fun x => ¬ x.IsLambda := by
    refine Session.New.start.everyProcedure fun {x} hinitial => ?_
    obtain ⟨op, home, rfl, -⟩ := hinitial
    exact nofun
  have hfree : s.ClosureFree [0] [expr] := by
    refine ⟨by simpa using hexpr, Store.AllBound.mono (hroot.define hmap) fun hv _ => hv⟩
  have hlambda : ¬ Value.Occurs (.special .lambda) expr := by
    have hall : expr.All fun x => x ≠ .special .lambda := by
      simp [expr, Value.all_list, Value.all_symbol, Value.all_special, Value.all_integer]
    exact fun h => hall _ h rfl
  have hname : HasValue 0 (.symbol "m") s map s :=
    hasValue_symbol (Store.get?_define_self Nat.zero_lt_one)
  have hoperands : InTurn (HasValue 0) _ s [map, .list [.integer 1, .integer 2]] s :=
    .cons hname (.cons (hasValue_quote s 0 _) .nil)
  have hcall : Ends (fun depth => call depth map [map, .list [.integer 1, .integer 2]]) s
      (.error (.arity "map" 2 1)) s := by
    refine ⟨0, ?_⟩
    have hitem : mapItem (eval 0) map (.integer 1) = fail (.arity "map" 2 1) := by
      rw [mapItem, apply_map_one]
      rfl
    show apply (eval 0) map _ s = _
    rw [apply]
    show ([Value.integer 1, .integer 2].mapM (mapItem (eval 0) map) >>= _) s = _
    rw [List.mapM_cons, hitem]
    rfl
  obtain ⟨answer, s', hrun, -, -, -, hfree'⟩ := terminates_without_lambda hlambda hfree
  have hends : Ends (fun depth => eval depth expr 0) s (.error (.arity "map" 2 1)) s :=
    (ends_application_iff_of_values (by simp) hname hoperands).mpr hcall
  obtain ⟨rfl, rfl⟩ := Ends.unique (eval_stable expr 0) ⟨_, hrun _ (Nat.le_refl _)⟩ hends
  exact ⟨rfl, hfree', hrun⟩

end ScopedLisp
