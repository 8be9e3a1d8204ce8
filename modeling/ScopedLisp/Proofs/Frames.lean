import Mathlib.Logic.Relation
import ScopedLisp.Proofs.Activation

/-!
# The frames of a store, over whole histories

A host makes frames, binds names in them, evaluates expressions and calls procedures, in any order
and whether that fails or not. `Store.Step` is one such use of a store, and `Store.Reached` says
that a store has come about so. In every store that has, scopes end at an outermost frame and
closures lie over frames that exist; and nothing that happens later moves a frame to another scope
or takes a name out of it (`frames_of_reached`).

The second half of that statement says who adds what: a definition its own name, in its own frame;
an assignment no name; evaluation no frames but those of the closures that it calls, each in the
frame in which the `lambda` form of the closure was evaluated.
-/

namespace ScopedLisp

open Eval

namespace Store

/-- The scopes around the frame end, after finitely many, with an outermost frame that exists. -/
inductive Rooted (s : Store) : FrameId → Prop
  | outermost {f : FrameId} (hf : f < s.next) (h : s.outer? f = none) : Rooted s f
  | inside {f o : FrameId} (h : s.outer? f = some o) (ho : Rooted s o) : Rooted s f

/-- One use of a store by a host, with frames and values that the store knows. -/
inductive Step : Store → Store → Prop
  | root (s : Store) : Step s s.pushRoot
  | empty (s : Store) : Step s s.pushEmpty
  | child {s : Store} {f : FrameId} (hf : f < s.next) : Step s (s.pushChild f)
  | nested {s : Store} {f : FrameId} {args : List Value} (params : List String) (hf : f < s.next)
      (hargs : ∀ a ∈ args, s.Holds a) : Step s (s.pushNested params args f)
  | define {s : Store} {f : FrameId} {v : Value} (name : String) (hf : f < s.next)
      (hv : s.Holds v) : Step s (s.define f name v)
  | set {s : Store} {f : FrameId} {v : Value} (name : String) (hf : f < s.next)
      (hv : s.Holds v) : Step s ((s.set? f name v).getD s)
  | lambda {s : Store} {f : FrameId} {body : Value} (params : List String) (hf : f < s.next)
      (hbody : s.Holds body) : Step s (s.makeClosure params body f).2
  | eval {s s' : Store} {f : FrameId} {expr : Value} {answer : Except EvalError (Option Value)}
      (hknows : s.Knows [f] [expr]) (h : Ends (fun depth => eval depth expr f) s answer s') :
      Step s s'
  | apply {s s' : Store} {procedure : Value} {args : List Value}
      {answer : Except EvalError (Option Value)} (hknows : s.Knows [] (procedure :: args))
      (h : Ends (fun depth => call depth procedure args) s answer s') : Step s s'

/-- From the one store to the other by any number of uses. -/
abbrev Leads : Store → Store → Prop := Relation.ReflTransGen Step

/-- The store has come about by use, from the store without frames on. -/
abbrev Reached (s : Store) : Prop := empty.Leads s

variable {s t : Store}

/-! ## What is kept -/

theorem WellFormed.rooted (h : s.WellFormed) {f : FrameId} (hf : f < s.next) : s.Rooted f := by
  induction f using Nat.strongRecOn with
  | ind f ih =>
    cases ho : s.outer? f with
    | none => exact .outermost hf ho
    | some o =>
      have hlt : o < f := h.outer_lt ho
      exact .inside ho (ih o hlt (Nat.lt_trans hlt hf))

theorem find?_binds {f g : FrameId} {name : String} (h : s.find? f name = some g) :
    s.binds g name = true := by
  unfold find? at h
  simpa using List.find?_some h

/-- An assignment binds no name anew. -/
theorem binds_set? {f : FrameId} {name : String} {v : Value} (h : s.set? f name v = some t)
    (g : FrameId) (other : String) : t.binds g other = s.binds g other := by
  obtain ⟨bound, hfind, rfl⟩ := Option.map_eq_some_iff.mp h
  rw [binds_define]
  by_cases hsame : bound = g ∧ name = other ∧ bound < s.next
  · obtain ⟨rfl, rfl, -⟩ := hsame
    rw [find?_binds hfind, Bool.or_true]
  · rw [decide_eq_false hsame, Bool.false_or]

theorem Step.extends (h : s.Step t) : s.Extends t := by
  cases h with
  | root | empty | child | nested => exact extends_push _ _
  | define name hf hv => exact extends_define ..
  | lambda params hf hbody => exact extends_count s
  | eval hknows h => exact h.extends_eval
  | apply hknows h => exact h.extends_call
  | @set f v name hf hv =>
    unfold set?
    cases s.find? f name with
    | none => exact .refl s
    | some g => exact extends_define ..

theorem Step.wellFormed (h : s.Step t) (hs : s.WellFormed) : t.WellFormed := by
  cases h with
  | root => exact hs.pushRoot
  | empty => exact hs.pushEmpty
  | child hf => exact hs.pushChild hf
  | define name hf hv => exact hs.define hv
  | lambda params hf hbody => exact hs.count
  | eval hknows h => exact (h.wellFormed_eval hs hknows).1
  | apply hknows h => exact (h.wellFormed_call hs hknows).1
  | nested params hf hargs =>
    refine hs.push (fun o ho => ?_) fun name v hv => hargs v (Bindings.mem_of_get?_ofPairs hv)
    cases ho
    exact hf
  | @set f v name hf hv =>
    unfold set?
    cases s.find? f name with
    | none => exact hs
    | some g => exact hs.define hv

theorem Leads.extends (h : s.Leads t) : s.Extends t := by
  induction h with
  | refl => exact .refl s
  | tail _ hstep ih => exact ih.trans hstep.extends

theorem Reached.wellFormed (h : s.Reached) : s.WellFormed := by
  induction h with
  | refl => exact wellFormed_empty
  | tail _ hstep ih => exact hstep.wellFormed ih

end Store

/-! ## Forms that bind -/

/-- The store after the operand that a binding form evaluates, or before it if it evaluates
none. -/
def Store.AfterOperand (s : Store) (f : FrameId) (operands : List Value) (s' : Store) : Prop :=
  s' = s ∨ ∃ expr answer, operands[1]? = some expr ∧
    Ends (fun depth => eval depth expr f) s answer s'

theorem Store.AfterOperand.of_ended {depth : Nat} {f : FrameId} {target expr : Value}
    {s s₁ : Store} {a : Except EvalError (Option Value)} (h : eval depth expr f s = ended a s₁) :
    s.AfterOperand f [target, expr] s₁ :=
  .inr ⟨expr, a, rfl, depth, h⟩

/-- `define` and `set!` fail before the action that binds, or end with it. -/
theorem ended_binding {depth : Nat} {f : FrameId} {form : SpecialForm} {target expr : Value}
    {act : String → Value → Eval Unit} {s s' : Store} {answer : Except EvalError (Option Value)}
    (h : (do
        let name ← ofExcept (targetName form target)
        let v ← required (eval depth) f expr
        act name v
        pure none) s = ended answer s') :
    (∃ e, answer = .error e ∧ s.AfterOperand f [target, expr] s') ∨
      ∃ name v s₁ a, target = .symbol name ∧ eval depth expr f s = ended (.ok (some v)) s₁ ∧
        act name v s₁ = ended a s' ∧ answer = a.map fun _ => none := by
  rcases bind_eq_ended_iff.mp h with ⟨e, rfl, hname⟩ | ⟨name, s₀, hname, hrest⟩
  · exact .inl ⟨e, rfl, .inl (ofExcept_eq_ended_iff.mp hname).2⟩
  · obtain ⟨htarget, rfl⟩ := ofExcept_eq_ended_iff.mp hname
    have hsymbol : target = .symbol name := by
      cases target with
      | symbol other => cases htarget; rfl
      | _ => cases htarget
    rcases bind_eq_ended_iff.mp hrest with ⟨e, rfl, hvalue⟩ | ⟨v, s₁, hvalue, hbind⟩
    · obtain ⟨a, hexpr, -⟩ := required_eq_ended_iff.mp hvalue
      exact .inl ⟨e, rfl, .of_ended hexpr⟩
    · obtain ⟨a, hexpr, ha⟩ := required_eq_ended_iff.mp hvalue
      rw [requiredAnswer_eq_ok_iff.mp ha.symm] at hexpr
      refine .inr ⟨name, v, s₁, ?_⟩
      rcases bind_eq_ended_iff.mp hbind with ⟨e, rfl, hact⟩ | ⟨u, s₂, hact, hlast⟩
      · exact ⟨.error e, hsymbol, hexpr, hact, rfl⟩
      · obtain ⟨rfl, rfl⟩ := pure_eq_ended_iff.mp hlast
        exact ⟨.ok u, hsymbol, hexpr, hact, rfl⟩

/-- A form of two operands that has any other number of them does nothing. -/
theorem ended_miscounted {form : SpecialForm} {expected got : Nat} {s s' : Store}
    {answer : Except EvalError (Option Value)}
    (h : miscounted form expected got s = ended answer s') : s' = s :=
  (fail_eq_ended_iff.mp h).2

/-- `set!` adds no name to any frame: what it adds, its operand has added. -/
theorem Eval.Ends.binds_assign {f : FrameId} {operands : List Value} {s s' : Store}
    {answer : Except EvalError (Option Value)}
    (h : Ends (fun depth => eval depth (.list (.special .assign :: operands)) f) s answer s') :
    ∃ s₁, s.AfterOperand f operands s₁ ∧ ∀ g name, s'.binds g name = s₁.binds g name := by
  obtain ⟨depth, hform⟩ := ends_eval_iff.mp h
  have hform : evalForm (eval depth) f .assign operands s = ended answer s' := hform
  match operands with
  | [target, expr] =>
    rcases ended_binding hform with ⟨-, -, hafter⟩ | ⟨name, v, s₁, a, -, hexpr, hact, -⟩
    · exact ⟨s', hafter, fun _ _ => rfl⟩
    · refine ⟨s₁, .of_ended hexpr, fun g other => ?_⟩
      rw [assign_apply] at hact
      cases hset : s₁.set? f name v with
      | none =>
        rw [hset] at hact
        rw [(fail_eq_ended_iff.mp hact).2]
      | some t =>
        rw [hset] at hact
        rw [(pure_eq_ended_iff.mp hact).2]
        exact Store.binds_set? hset g other
  | [] => exact ⟨s', .inl (ended_miscounted hform), fun _ _ => rfl⟩
  | [_] => exact ⟨s', .inl (ended_miscounted hform), fun _ _ => rfl⟩
  | _ :: _ :: _ :: _ => exact ⟨s', .inl (ended_miscounted hform), fun _ _ => rfl⟩

/-- `define` adds its own name to its own frame at most. -/
theorem Eval.Ends.binds_define {f : FrameId} {operands : List Value} {s s' : Store}
    {answer : Except EvalError (Option Value)}
    (h : Ends (fun depth => eval depth (.list (.special .define :: operands)) f) s answer s') :
    ∃ s₁, s.AfterOperand f operands s₁ ∧ ∀ g name, s'.binds g name → s₁.binds g name ∨
      g = f ∧ operands.head? = some (.symbol name) := by
  obtain ⟨depth, hform⟩ := ends_eval_iff.mp h
  have hform : evalForm (eval depth) f .define operands s = ended answer s' := hform
  match operands with
  | [target, expr] =>
    rcases ended_binding hform with ⟨-, -, hafter⟩ | ⟨name, v, s₁, a, htarget, hexpr, hact, -⟩
    · exact ⟨s', hafter, fun _ _ => .inl⟩
    · refine ⟨s₁, .of_ended hexpr, fun g other hbinds => ?_⟩
      rw [define_apply] at hact
      obtain ⟨-, rfl⟩ := pure_eq_ended_iff.mp hact
      rw [Store.binds_define, Bool.or_eq_true, decide_eq_true_eq] at hbinds
      rcases hbinds with ⟨rfl, rfl, -⟩ | hbinds
      · exact .inr ⟨rfl, by rw [htarget]; rfl⟩
      · exact .inl hbinds
  | [] => exact ⟨s', .inl (ended_miscounted hform), fun _ _ => .inl⟩
  | [_] => exact ⟨s', .inl (ended_miscounted hform), fun _ _ => .inl⟩
  | _ :: _ :: _ :: _ => exact ⟨s', .inl (ended_miscounted hform), fun _ _ => .inl⟩

/-- A `lambda` form captures the frame that it is evaluated in, and makes none. -/
theorem Eval.Ends.captures {f : FrameId} {operands : List Value} {s s' : Store} {x : Value}
    (h : Ends (fun depth => eval depth (.list (.special .lambda :: operands)) f) s (.ok (some x))
      s') :
    ∃ params body, operands = [.list (params.map .symbol), body] ∧
      x = .closure s.closures params body f ∧ s' = { s with closures := s.closures + 1 } := by
  obtain ⟨depth, hform⟩ := ends_eval_iff.mp h
  have hform : evalForm (eval depth) f .lambda operands s = ended (.ok (some x)) s' := hform
  match operands with
  | [params, body] =>
    have hmade : (some <$> makeLambda f params body) s = ended (.ok (some x)) s' := hform
    rw [map_eq_pure_bind] at hmade
    obtain ⟨made, s₁, hlambda, hlast⟩ := bind_eq_ended_ok hmade
    obtain ⟨hx, rfl⟩ := pure_eq_ended_iff.mp hlast
    obtain ⟨names, s₀, hnames, hclose⟩ := bind_eq_ended_ok hlambda
    obtain ⟨hparams, rfl⟩ := ofExcept_eq_ended_iff.mp hnames
    rw [close_apply] at hclose
    cases hclose
    cases hx
    rw [parameterNames_eq_ok_iff.mp hparams.symm]
    exact ⟨names, body, rfl, rfl, rfl⟩
  | [] | [_] | _ :: _ :: _ :: _ => cases (fail_eq_ended_iff.mp hform).1

/-! ## Whole histories -/

/-- **The frames of a store that has come about by use**: scopes end, closures lie over frames that
exist, scopes and bound names stay. A name is added only by the definition of it. A frame, in
evaluation, is added only by the call of a closure: whatever is evaluated or called and however that
ends, every new frame is the activation of a closure that the run has called, and lies in the frame
that the closure captured, which is the one that its `lambda` form was evaluated in. -/
theorem frames_of_reached :
    (∀ s : Store, s.Reached →
      (∀ f < s.next, s.Rooted f) ∧
      (∀ f name v, s.binding? f name = some v →
        v.EveryClosure fun _ _ _ home => home < s.next) ∧
      ∀ t, s.Leads t → (∀ f < s.next, t.outer? f = s.outer? f) ∧
        ∀ f name, s.binds f name → t.binds f name) ∧
    (∀ (s s' : Store) f name v, s.set? f name v = some s' →
      ∀ g n, s'.binds g n = s.binds g n) ∧
    (∀ s s' f operands answer,
      Ends (fun depth => eval depth (.list (.special .assign :: operands)) f) s answer s' →
      ∃ s₁, s.AfterOperand f operands s₁ ∧ ∀ g n, s'.binds g n = s₁.binds g n) ∧
    (∀ (s : Store) f name v g n, (s.define f name v).binds g n →
      s.binds g n ∨ g = f ∧ n = name) ∧
    (∀ s s' f operands answer,
      Ends (fun depth => eval depth (.list (.special .define :: operands)) f) s answer s' →
      ∃ s₁, s.AfterOperand f operands s₁ ∧ ∀ g n, s'.binds g n →
        s₁.binds g n ∨ g = f ∧ operands.head? = some (.symbol n)) ∧
    (∀ depth expr f s,
      let log := visits depth expr f s
      let s' := left (eval depth expr f s)
      (∀ visit ∈ log, ∃ d, visit.outcome = eval d visit.expr visit.frame visit.before) ∧
        ∀ g, s.next ≤ g → g < s'.next → s'.IsActivation (madeIn log) log g) ∧
    (∀ depth procedure args s,
      let log := callVisits (eval depth) (visits depth) procedure args s
      let s' := left (call depth procedure args s)
      (∀ visit ∈ log, ∃ d, visit.outcome = eval d visit.expr visit.frame visit.before) ∧
        ∀ g, s.next ≤ g → g < s'.next → s'.IsActivation (fun p values u =>
          ComesTo procedure args s p values u ∨ madeIn log p values u) log g) ∧
    ∀ s s' f operands x,
      Ends (fun depth => eval depth (.list (.special .lambda :: operands)) f) s (.ok (some x)) s' →
      ∃ params body, operands = [.list (params.map .symbol), body] ∧
        x = .closure s.closures params body f ∧ s' = { s with closures := s.closures + 1 } := by
  refine ⟨fun s hs => ⟨?_, ?_, ?_⟩, ?_, ?_, ?_, ?_, ?_, ?_, ?_⟩
  · exact fun f hf => hs.wellFormed.rooted hf
  · exact fun f name v hv => Value.EveryClosure.mono (hs.wellFormed.holds hv) And.right
  · exact fun t ht => ⟨ht.extends.outer, ht.extends.binds⟩
  · exact fun s s' f name v hset => Store.binds_set? hset
  · exact fun s s' f operands answer hends => hends.binds_assign
  · intro s f name v g n hbinds
    rw [Store.binds_define, Bool.or_eq_true, decide_eq_true_eq] at hbinds
    rcases hbinds with ⟨rfl, rfl, -⟩ | hbinds
    · exact .inr ⟨rfl, rfl⟩
    · exact .inl hbinds
  · exact fun s s' f operands answer hends => hends.binds_define
  · intro depth expr f s
    exact ⟨outcome_of_mem_visits depth expr f s, (activates_evaluation depth expr f s).made⟩
  · intro depth procedure args s
    refine ⟨?_, (activates_call depth procedure args s).made⟩
    exact forall_mem_callVisits (outcome_of_mem_visits depth) procedure args s
  · exact fun s s' f operands x hends => hends.captures

/-- A closure over frame `0`, called from frame `1`, where `y` is defined and then overwritten: the
frame of the call lies in frame `0`. -/
theorem frames_of_reached_call :
    let c : Value := .closure 0 ["x"] (.integer 7) 0
    let s := (Store.empty.pushEmpty.makeClosure ["x"] (.integer 7) 0).2.pushChild 0
    let t := s.define 1 "y" (.integer 1)
    let u := t.define 1 "y" (.integer 2)
    (∃ s₁, s.AfterOperand 1 [.symbol "y", .integer 1] s₁ ∧ ∀ g n, t.binds g n →
      s₁.binds g n ∨ g = 1 ∧ [Value.symbol "y", .integer 1].head? = some (.symbol n)) ∧
    (∀ g n, u.binds g n = t.binds g n) ∧
    ∃ u' : Store, u'.outer? 2 = some 0 ∧ u'.Rooted 2 ∧ u'.outer? 1 = s.outer? 1 ∧
      u'.IsActivation (madeIn (visits 2 (.list [c, .integer 5]) 1 u))
        (visits 2 (.list [c, .integer 5]) 1 u) 2 ∧
      u'.IsActivation (fun p values t => ComesTo c [.integer 5] u p values t ∨
          madeIn (callVisits (eval 1) (visits 1) c [.integer 5] u) p values t)
        (callVisits (eval 1) (visits 1) c [.integer 5] u) 2 := by
  intro c s t u
  have hdefine : Ends
      (fun depth => eval depth (.list [.special .define, .symbol "y", .integer 1]) 1) s (.ok none)
      t := ⟨2, rfl⟩
  have hset : t.set? 1 "y" (.integer 2) = some u := by
    have hchain : t.chain 1 = [1, 0] := by
      rw [Store.chain_inside rfl Nat.zero_lt_one, Store.chain_outermost rfl]
    rw [Store.set?, Store.find?, hchain]
    rfl
  have happly : apply (eval 1) c [.integer 5] u =
      .ok (some (.integer 7)) (u.pushNested ["x"] [.integer 5] 0) := by
    rw [apply]
    rfl
  have heval : left (eval 2 (.list [c, .integer 5]) 1 u) = u.pushNested ["x"] [.integer 5] 0 :=
    congrArg left happly
  have hcalled : left (call 1 c [.integer 5] u) = u.pushNested ["x"] [.integer 5] 0 :=
    congrArg left happly
  have hcall : Ends (fun depth => call depth c [.integer 5]) u (.ok (some (.integer 7)))
      (u.pushNested ["x"] [.integer 5] 0) := ⟨1, happly⟩
  have hs : s.Reached :=
    .tail (.tail (.single (.empty _)) (.lambda ["x"] (by decide) (Value.everyClosure_integer 7)))
      (.child (by decide))
  have hknows : u.Knows [] [c, .integer 5] := by
    refine ⟨by simp, List.forall_mem_cons.mpr ⟨?_, ?_⟩⟩
    · exact Value.everyClosure_closure.mpr
        ⟨⟨by decide, by decide⟩, Value.everyClosure_integer 7⟩
    · exact List.forall_mem_singleton.mpr (Value.everyClosure_integer 5)
  have hleads : s.Leads (u.pushNested ["x"] [.integer 5] 0) :=
    .tail (.tail (.single (.define "y" (by decide) (Value.everyClosure_integer 1)))
      (.define "y" (by decide) (Value.everyClosure_integer 2))) (.apply hknows hcall)
  obtain ⟨hreached, hassign, -, -, hbind, hevaluation, hcalls, -⟩ := frames_of_reached
  refine ⟨hbind s t 1 _ _ hdefine, hassign t u 1 "y" _ hset,
    u.pushNested ["x"] [.integer 5] 0, rfl, ?_, ?_, ?_, ?_⟩
  · exact (hreached _ (hs.trans hleads)).1 2 (by decide)
  · exact ((hreached s hs).2.2 _ hleads).1 1 (by decide)
  · rw [← heval]
    exact (hevaluation 2 (.list [c, .integer 5]) 1 u).2 2 (by decide) (by rw [heval]; decide)
  · rw [← hcalled]
    exact (hcalls 1 c [.integer 5] u).2 2 (by decide) (by rw [hcalled]; decide)

end ScopedLisp
