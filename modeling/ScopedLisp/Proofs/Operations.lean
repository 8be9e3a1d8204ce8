import ScopedLisp.Proofs.Simulation

/-!
# Operations under a renaming

No operation can tell the numbers of frames and closures: on renamed arguments it gives the
renamed result or the renamed error. And an operation makes no procedure of its own, so whatever
is known of its arguments is known of its result.

`Answers` relates two computations that do not touch the store; there is one lemma for each family
of operations, and each of them goes down to `toFloat`, `toItems` and `uncons`.
-/

namespace ScopedLisp

/-- Both computations succeed with related results, or fail with the same error. -/
inductive Renaming.Answers (r : Renaming) {α β : Type} (R : α → β → Prop) :
    Except EvalError α → Except EvalError β → Prop
  | ok {a : α} {b : β} (h : R a b) : Answers r R (.ok a) (.ok b)
  | error (e : EvalError) : Answers r R (.error e) (.error (e.rename r))

namespace Renaming.Answers

variable {r : Renaming} {α β γ δ : Type} {R : α → β → Prop} {Q : γ → δ → Prop}

theorem bind {x : Except EvalError α} {x' : Except EvalError β} {k : α → Except EvalError γ}
    {k' : β → Except EvalError δ} (hx : r.Answers R x x')
    (hk : ∀ a b, R a b → r.Answers Q (k a) (k' b)) : r.Answers Q (x >>= k) (x' >>= k') := by
  cases hx with
  | ok h => exact hk _ _ h
  | error e => exact .error e

theorem map {x : Except EvalError α} {x' : Except EvalError β} {f : α → γ} {g : β → δ}
    (hx : r.Answers R x x') (hfg : ∀ a b, R a b → Q (f a) (g b)) :
    r.Answers Q (f <$> x) (g <$> x') := by
  cases hx with
  | ok h => exact .ok (hfg _ _ h)
  | error e => exact .error e

end Renaming.Answers

namespace Simulation

variable {r : Renaming} {S : Simulation r} {w : S.World}

/-! ## Taking arguments apart -/

theorem answers_toFloat (name : String) (v : Value) :
    r.Answers Eq (v.toFloat name) ((v.rename r).toFloat name) := by
  cases v with
  | integer | float => exact .ok rfl
  | _ => exact .error _

theorem answers_toItems (name : String) {v : Value} (hv : S.Data w v) :
    r.Answers (S.SameAll w) (v.toItems name) ((v.rename r).toItems name) := by
  cases v with
  | list items =>
    rw [Value.rename_list]
    exact .ok ⟨S.data_list.mp hv, rfl⟩
  | _ => exact .error _

theorem answers_uncons (name : String) {v : Value} (hv : S.Data w v) :
    r.Answers (fun p p' => S.Same w p.1 p'.1 ∧ S.SameAll w p.2 p'.2) (v.uncons name)
      ((v.rename r).uncons name) := by
  cases v with
  | list items =>
    rw [Value.rename_list]
    cases items with
    | nil => exact .error _
    | cons first rest =>
      obtain ⟨hfirst, hrest⟩ := List.forall_mem_cons.mp (S.data_list.mp hv)
      exact .ok ⟨⟨hfirst, rfl⟩, ⟨hrest, rfl⟩⟩
  | _ => exact .error _

/-! ## Numbers -/

/-- What an operation makes of two doubles is a number or an answer to a question, which nobody
can renumber. -/
theorem answers_onFloats (name : String) (a b : Value) {f : Float → Float → Value}
    (hf : ∀ x y, S.Same w (f x y) (f x y)) :
    r.Answers (S.Same w)
      (do let x ← a.toFloat name; let y ← b.toFloat name; pure (f x y))
      (do let x ← (a.rename r).toFloat name; let y ← (b.rename r).toFloat name; pure (f x y)) := by
  refine (answers_toFloat name a).bind fun x x' hx => ?_
  refine (answers_toFloat name b).bind fun y y' hy => ?_
  subst hx hy
  exact .ok (hf x y)

theorem same_integer (n : Int64) : S.Same w (.integer n) (.integer n) := ⟨S.data_integer, rfl⟩

theorem same_float (x : Float) : S.Same w (.float x) (.float x) := ⟨S.data_float, rfl⟩

theorem same_ofBool (b : Bool) : S.Same w (.ofBool b) (.ofBool b) := same_integer _

theorem answers_onIntegers (op : Arithmetic) (a b : Int64) :
    r.Answers (S.Same w) (Value.integer <$> op.onIntegers a b)
      (Value.integer <$> op.onIntegers a b) := by
  have h : r.Answers Eq (op.onIntegers a b) (op.onIntegers a b) := by
    cases op with
    | div =>
      rw [Arithmetic.onIntegers]
      split
      · exact .error .divisionByZero
      · exact .ok rfl
    | _ => exact .ok rfl
  exact h.map fun _ _ hn => hn ▸ same_integer _

theorem answers_arithmetic (op : Arithmetic) (a b : Value) :
    r.Answers (S.Same w) (op.run a b) (op.run (a.rename r) (b.rename r)) := by
  have hfloats := answers_onFloats (S := S) (w := w) op.name a b
    (f := fun x y => .float (op.onFloats x y)) fun x y => same_float _
  cases a with
  | integer m =>
    cases b with
    | integer n => exact answers_onIntegers op m n
    | _ => exact hfloats
  | _ => exact hfloats

theorem answers_order (name : String) (a b : Value) :
    r.Answers Eq (Comparison.order? name a b)
      (Comparison.order? name (a.rename r) (b.rename r)) := by
  have hfloats : r.Answers Eq
      (do let x ← a.toFloat name; let y ← b.toFloat name; pure (Number.compare? x y))
      (do let x ← (a.rename r).toFloat name; let y ← (b.rename r).toFloat name
          pure (Number.compare? x y)) := by
    refine (answers_toFloat name a).bind fun x x' hx => ?_
    refine (answers_toFloat name b).bind fun y y' hy => ?_
    subst hx hy
    exact .ok rfl
  cases a with
  | integer m =>
    cases b with
    | integer n => exact .ok rfl
    | _ => exact hfloats
  | _ => exact hfloats

theorem answers_comparison (op : Comparison) (a b : Value) :
    r.Answers (S.Same w) (op.run a b) (op.run (a.rename r) (b.rename r)) := by
  refine (answers_order op.name a b).bind fun o o' ho => ?_
  subst ho
  exact .ok (same_ofBool _)

/-! ## Operations -/

theorem holds_rename (p : Predicate) (v : Value) : p.holds (v.rename r) = p.holds v := by
  cases p <;> simp [Predicate.holds]

theorem answers_unary (op : Unary) {v : Value} (hv : S.Data w v) :
    r.Answers (S.Same w) (op.run v) (op.run (v.rename r)) := by
  cases op with
  | floatFunction f =>
    exact (answers_toFloat _ v).bind fun x x' hx => hx ▸ .ok (same_float _)
  | abs =>
    have hfloat : r.Answers (S.Same w)
        (do let x ← v.toFloat Unary.abs.name; pure (.float x.abs))
        (do let x ← (v.rename r).toFloat Unary.abs.name; pure (.float x.abs)) :=
      (answers_toFloat _ v).bind fun x x' hx => hx ▸ .ok (same_float _)
    cases v with
    | integer n => exact .ok (same_integer _)
    | _ => exact hfloat
  | car => exact (answers_uncons _ hv).bind fun _ _ h => .ok h.1
  | cdr => exact (answers_uncons _ hv).bind fun _ _ h => .ok h.2.list
  | length =>
    refine (answers_toItems _ hv).bind fun items items' h => ?_
    rw [h.2, List.length_map]
    exact .ok (same_integer _)
  | predicate p =>
    rw [Unary.run, Unary.run, holds_rename]
    exact .ok (same_ofBool _)

theorem same_rename {a b : Value} (ha : S.Data w a) (hb : S.Data w b) :
    (a.rename r).same (b.rename r) = a.same b := by
  have hequal := S.equal_rename ha hb
  cases a with
  | list as =>
    cases b with
    | list bs => simp [Value.same]
    | _ => exact hequal
  | _ => exact hequal

theorem answers_binary (op : Binary) {a b : Value} (ha : S.Data w a) (hb : S.Data w b) :
    r.Answers (S.Same w) (op.run a b) (op.run (a.rename r) (b.rename r)) := by
  cases op with
  | arithmetic f => exact answers_arithmetic f a b
  | comparison f => exact answers_comparison f a b
  | pow => exact answers_onFloats _ a b fun x y => same_float _
  | cons =>
    refine (answers_toItems _ hb).bind fun items items' h => ?_
    exact .ok (Same.cons ⟨ha, rfl⟩ h).list
  | eq =>
    rw [Binary.run, Binary.run, same_rename ha hb]
    exact .ok (same_ofBool _)
  | equal =>
    rw [Binary.run, Binary.run, S.equal_rename ha hb]
    exact .ok (same_ofBool _)

/-- **Operations answer alike under a renaming**, with a result of which as much is known as of
the arguments. -/
theorem answers_operation (op : Operation) {args : List Value} (h : ∀ a ∈ args, S.Data w a) :
    r.Answers (S.Same w) (op.run args) (op.run (args.map (Value.rename r))) := by
  have hcount (name : String) (expected : Nat) :
      r.Answers (S.Same w) (.error (.arity name expected args.length))
        (.error (.arity name expected (args.map (Value.rename r)).length)) := by
    rw [List.length_map]
    exact .error (.arity name expected args.length)
  cases op with
  | list =>
    exact .ok ⟨S.data_list.mpr h, by rw [Value.rename_list]⟩
  | unary f =>
    match args with
    | [v] => exact answers_unary f (h v (by simp))
    | [] => exact hcount _ _
    | _ :: _ :: _ => exact hcount _ _
  | binary f =>
    match args with
    | [a, b] => exact answers_binary f (h a (by simp)) (h b (by simp))
    | [] => exact hcount _ _
    | [_] => exact hcount _ _
    | _ :: _ :: _ :: _ => exact hcount _ _

end Simulation

end ScopedLisp
