import Mathlib.Data.List.Basic
import ScopedLisp.Eval.Expression
import ScopedLisp.Proofs.Renaming

/-!
# Two runs side by side

Much of what evaluation does to the store is said by comparing two runs: a run and the same run
with more depth, in a larger store, or under other numbers, and also a run with itself where an
invariant is meant. A `Simulation` lists what a comparison has to know:

* when two stores are `Related`, and which frames, which expressions and which values may be used
  in a run (`Frame`, `Code`, `Data`);
* that the five actions on the store keep the stores related.

`Simulates` is what follows for two computations, and the rules after it follow the way in which
computations are put together. No rule unfolds the evaluator; `ScopedLisp.Proofs.Evaluation` does,
once for all comparisons.

The conditions may depend on a `World`, for what is only known as a run goes on, such as how many
frames there are. Whatever may be used in a world may be used in all later ones.
-/

namespace ScopedLisp

open Eval

/-- How two runs are compared, the second under the numbers that `r` gives. -/
structure Simulation (r : Renaming) where
  World : Type
  Later : World → World → Prop
  Related : World → Store → Store → Prop
  /-- Frames in which may be evaluated. -/
  Frame : World → FrameId → Prop
  /-- Expressions that may be evaluated. -/
  Code : World → Value → Prop
  /-- Values that may be held. -/
  Data : World → Value → Prop
  later_refl : ∀ w, Later w w
  later_trans : ∀ {u v w}, Later u v → Later v w → Later u w
  frame_later : ∀ {w w' f}, Later w w' → Frame w f → Frame w' f
  code_later : ∀ {w w' expr}, Later w w' → Code w expr → Code w' expr
  data_later : ∀ {w w' v}, Later w w' → Data w v → Data w' v
  code_items : ∀ {w items}, Code w (.list items) → ∀ expr ∈ items, Code w expr
  data_of_code : ∀ {w expr}, Code w expr → Data w expr
  data_integer : ∀ {w n}, Data w (.integer n)
  data_float : ∀ {w x}, Data w (.float x)
  data_list : ∀ {w items}, Data w (.list items) ↔ ∀ v ∈ items, Data w v
  code_body : ∀ {w id params body home}, Data w (.closure id params body home) → Code w body
  equal_rename : ∀ {w a b}, Data w a → Data w b → (a.rename r).equal (b.rename r) = a.equal b
  lookup : ∀ {w s t f name}, Related w s t → Frame w f → Code w (.symbol name) →
    t.get? (r.frame f) name = (s.get? f name).map (Value.rename r) ∧
      ∀ v, s.get? f name = some v → Data w v
  define : ∀ {w s t f name expr v}, Related w s t → Frame w f →
    Code w (.list [.special .define, .symbol name, expr]) → Data w v →
    ∃ w', Later w w' ∧ Related w' (s.define f name v) (t.define (r.frame f) name (v.rename r))
  assign : ∀ {w s t f name expr v}, Related w s t → Frame w f →
    Code w (.list [.special .assign, .symbol name, expr]) → Data w v →
    (s.set? f name v = none ∧ t.set? (r.frame f) name (v.rename r) = none) ∨
      ∃ w' s' t', Later w w' ∧ Related w' s' t' ∧ s.set? f name v = some s' ∧
        t.set? (r.frame f) name (v.rename r) = some t'
  enter : ∀ {w s t id params body home args}, Related w s t →
    Data w (.closure id params body home) → (∀ a ∈ args, Data w a) → args.length = params.length →
    ∃ w', Later w w' ∧ Frame w' s.next ∧ t.next = r.frame s.next ∧
      Related w' (s.pushNested params args home)
        (t.pushNested params (args.map (Value.rename r)) (r.frame home))
  close : ∀ {w s t f params body names}, Related w s t → Frame w f →
    Code w (.list [.special .lambda, params, body]) → parameterNames params = .ok names →
    ∃ w', Later w w' ∧ Data w' (.closure s.closures names body f) ∧
      t.closures = r.closure s.closures ∧
      Related w' { s with closures := s.closures + 1 } { t with closures := t.closures + 1 }

namespace Simulation

variable {r : Renaming} (S : Simulation r) {α β γ δ : Type}

/-! ## Related answers -/

/-- The second value is the first under its new numbers. -/
def Same (w : S.World) (v v' : Value) : Prop := S.Data w v ∧ v' = v.rename r

def SameAll (w : S.World) (vs vs' : List Value) : Prop :=
  (∀ v ∈ vs, S.Data w v) ∧ vs' = vs.map (Value.rename r)

/-- The same for an evaluation that may produce nothing. -/
def SameResult (w : S.World) (o o' : Option Value) : Prop :=
  (∀ v, o = some v → S.Data w v) ∧ o' = o.map (Value.rename r)

variable {S} {w w' : S.World}

theorem Same.later {v v' : Value} (h : S.Same w v v') (hw : S.Later w w') : S.Same w' v v' :=
  ⟨S.data_later hw h.1, h.2⟩

theorem Same.cons {v v' : Value} {vs vs' : List Value} (h : S.Same w v v')
    (hs : S.SameAll w vs vs') : S.SameAll w (v :: vs) (v' :: vs') :=
  ⟨List.forall_mem_cons.mpr ⟨h.1, hs.1⟩, by rw [h.2, hs.2, List.map_cons]⟩

theorem Same.some {v v' : Value} (h : S.Same w v v') :
    S.SameResult w (Option.some v) (Option.some v') :=
  ⟨fun _ hv => Option.some.inj hv ▸ h.1, by rw [h.2, Option.map_some]⟩

theorem SameResult.none : S.SameResult w Option.none Option.none := ⟨nofun, rfl⟩

theorem SameAll.list {vs vs' : List Value} (h : S.SameAll w vs vs') :
    S.Same w (.list vs) (.list vs') :=
  ⟨S.data_list.mpr h.1, by rw [h.2, Value.rename_list]⟩

/-! ## Related outcomes -/

/-- Both runs ended alike and left related stores, or the first one was cut off. -/
inductive Agree (S : Simulation r) (w : S.World) (R : S.World → α → β → Prop) :
    EStateM.Result Stop Store α → EStateM.Result Stop Store β → Prop
  | ok {w' : S.World} {a : α} {b : β} {s t : Store} (hw : S.Later w w') (hst : S.Related w' s t)
      (hab : R w' a b) : Agree S w R (.ok a s) (.ok b t)
  | error {w' : S.World} {e : EvalError} {s t : Store} (hw : S.Later w w')
      (hst : S.Related w' s t) :
      Agree S w R (.error (.error e) s) (.error (.error (e.rename r)) t)
  | depth {s : Store} {outcome : EStateM.Result Stop Store β} :
      Agree S w R (.error .depth s) outcome

/-- Started in related stores, the two computations end alike. -/
def Simulates (S : Simulation r) (w : S.World) (R : S.World → α → β → Prop) (m : Eval α)
    (m' : Eval β) : Prop :=
  ∀ s t, S.Related w s t → S.Agree w R (m s) (m' t)

variable {R : S.World → α → β → Prop} {Q : S.World → γ → δ → Prop}

theorem Agree.earlier {o : EStateM.Result Stop Store α} {o' : EStateM.Result Stop Store β}
    (h : S.Agree w' R o o') (hw : S.Later w w') : S.Agree w R o o' := by
  cases h with
  | ok hlater hst hab => exact .ok (S.later_trans hw hlater) hst hab
  | error hlater hst => exact .error (S.later_trans hw hlater) hst
  | depth => exact .depth

theorem simulates_pure {a : α} {b : β} (h : R w a b) : S.Simulates w R (pure a) (pure b) :=
  fun _ _ hst => .ok (S.later_refl w) hst h

theorem simulates_fail (e : EvalError) : S.Simulates w R (fail e) (fail (e.rename r)) :=
  fun _ _ hst => .error (S.later_refl w) hst

/-- Whatever the second computation is, nothing is claimed once the first is cut off. -/
theorem simulates_depth (m : Eval β) : S.Simulates w R (throw .depth) m :=
  fun _ _ _ => .depth

/-- **Sequences agree** if their first steps do, and their rests do in all later worlds. -/
theorem simulates_bind {m : Eval α} {m' : Eval β} {k : α → Eval γ} {k' : β → Eval δ}
    (hm : S.Simulates w R m m')
    (hk : ∀ {w'}, S.Later w w' → ∀ {a b}, R w' a b → S.Simulates w' Q (k a) (k' b)) :
    S.Simulates w Q (m >>= k) (m' >>= k') := by
  intro s t hst
  rw [bind_apply, bind_apply]
  have hagree := hm s t hst
  generalize m s = first at hagree
  generalize m' t = second at hagree
  cases hagree with
  -- the rest is run in the world in which the first step has ended
  | ok hw hst hab => exact (hk hw hab _ _ hst).earlier hw
  | error hw hst => exact .error hw hst
  | depth => exact .depth

theorem simulates_map {m : Eval α} {m' : Eval β} {f : α → γ} {g : β → δ}
    (hm : S.Simulates w R m m') (hfg : ∀ {w' a b}, R w' a b → Q w' (f a) (g b)) :
    S.Simulates w Q (f <$> m) (g <$> m') := by
  rw [map_eq_pure_bind, map_eq_pure_bind]
  exact simulates_bind hm fun _ _ _ hab => simulates_pure (hfg hab)

theorem simulates_mapM {k k' : Value → Eval Value} {items : List Value}
    (hk : ∀ {w'}, S.Later w w' → ∀ v ∈ items, S.Simulates w' S.Same (k v) (k' (v.rename r))) :
    S.Simulates w S.SameAll (items.mapM k) ((items.map (Value.rename r)).mapM k') := by
  induction items generalizing w with
  | nil => exact simulates_pure ⟨by simp, rfl⟩
  | cons v items ih =>
    rw [List.map_cons, List.mapM_cons, List.mapM_cons]
    refine simulates_bind (hk (S.later_refl w) v List.mem_cons_self) fun hw a b hab => ?_
    have hrest := ih fun hlater x hx =>
      hk (S.later_trans hw hlater) x (List.mem_cons_of_mem v hx)
    refine simulates_bind hrest fun hlater as bs hs => ?_
    -- the first value is still known when the last one has been made
    exact simulates_pure ((hab.later hlater).cons hs)

/-- The last of a row of evaluations is the result. -/
theorem simulates_foldlM {k k' : Value → Eval (Option Value)} {items : List Value}
    (hk : ∀ {w'}, S.Later w w' → ∀ v ∈ items, S.Simulates w' S.SameResult (k v) (k' (v.rename r)))
    {o o' : Option Value} (ho : S.SameResult w o o') :
    S.Simulates w S.SameResult (items.foldlM (fun _ v => k v) o)
      ((items.map (Value.rename r)).foldlM (fun _ v => k' v) o') := by
  induction items generalizing w o o' with
  | nil => exact simulates_pure ho
  | cons v items ih =>
    rw [List.map_cons, List.foldlM_cons, List.foldlM_cons]
    refine simulates_bind (hk (S.later_refl w) v List.mem_cons_self) fun hw a b hab => ?_
    exact ih (fun hlater x hx => hk (S.later_trans hw hlater) x (List.mem_cons_of_mem v hx)) hab

end Simulation

end ScopedLisp
