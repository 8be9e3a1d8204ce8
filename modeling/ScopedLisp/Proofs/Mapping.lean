import ScopedLisp.Proofs.Application
import ScopedLisp.Proofs.Parameters

/-!
# Mapping is calling in a row

`map` has a loop of its own, in which it hands each item to the procedure. The same calls can be
written out, `(list (g (quote v₁)) … (g (quote vₙ)))`, and made by the evaluator, which has a loop
for operands. Both loops go from item to item, hand on the store, and stop with the first call that
has no value; they differ in nothing but the words for a call that produced nothing.
-/

namespace ScopedLisp

open Eval

namespace Value

/-- `(g (quote v))` -/
def calling (g v : Value) : Value := .list [g, .list [.special .quote, v]]

/-- `(list (g (quote v₁)) … (g (quote vₙ)))`, with the primitive of the root `home` at its head. -/
def listOfCalls (home : FrameId) (g : Value) (items : List Value) : Value :=
  .list (.primitive (.operation .list) home :: items.map (calling g))

end Value

variable {g item : Value} {items values : List Value} {home f : FrameId} {s s' : Store}
  {e : EvalError}

/-! ## One call -/

/-- A procedure stands for itself. -/
theorem hasValue_procedure (hg : g.isProcedure = true) (f : FrameId) (s : Store) :
    HasValue f g s g s := by
  cases g with
  | primitive | closure => exact ⟨1, rfl⟩
  | _ => cases hg

theorem ne_special_of_isProcedure (hg : g.isProcedure = true) (form : SpecialForm) :
    g ≠ .special form := by
  rintro rfl
  cases hg

/-- A call that is written out ends as the call does. -/
theorem ends_calling_iff (hg : g.isProcedure = true) {answer : Except EvalError (Option Value)} :
    Ends (fun depth => eval depth (g.calling item) f) s answer s' ↔
      Ends (fun depth => call depth g [item]) s answer s' :=
  ends_application_iff_of_values (ne_special_of_isProcedure hg) (hasValue_procedure hg f s)
    (.cons (hasValue_quote s f item) .nil)

/-- The calls of `g` with the items have values up to one, which is the last. It fails, or it
produces nothing, for which `nothing` says the error. -/
def CallsFail (nothing : Value → EvalError) (g : Value) (items : List Value) (s : Store)
    (e : EvalError) (s' : Store) : Prop :=
  ∃ done item rest values s₁, items = done ++ item :: rest ∧
    InTurn (fun item => Gives g [item]) done s values s₁ ∧
    (Ends (fun depth => call depth g [item]) s₁ (.error e) s' ∨
      Ends (fun depth => call depth g [item]) s₁ (.ok none) s' ∧ e = nothing item)

/-! ## Both loops -/

/-- An evaluator that has got to the list wants a value from each operand. -/
theorem ends_listOfCalls_iff {answer : Except EvalError (Option Value)} :
    Ends (fun depth => eval depth (.listOfCalls home g items) f) s answer s' ↔
      Ends (listed (fun item => .type (.noValue (g.calling item)))
        (fun depth item => eval depth (g.calling item) f) items) s answer s' := by
  have hlist (depth : Nat) :
      call depth (.primitive (.operation .list) home) = fun args => pure (some (.list args)) := by
    funext args
    rw [call, apply]
    rfl
  have hhead : HasValue f (.primitive (.operation .list) home) s _ s := hasValue_procedure rfl f s
  rw [Value.listOfCalls, ends_application_iff_of_value (by simp) hhead]
  simp only [List.mapM_map, hlist]
  rfl

/-- **Mapping is calling in a row.** For every list, `map` and the calls that are written out have
the same list of results and leave the same store, or they fail with the same call: the first that
has no value, after the effects of the calls before it and without a call behind it. The errors are
the same too, but for the words if that call has produced nothing. -/
theorem map_eq_calls (hg : g.isProcedure = true) (items : List Value) (home home' f : FrameId)
    (s : Store) :
    (∀ o s',
      (Ends (fun depth => call depth (.primitive .map home) [g, .list items]) s (.ok o) s' ↔
        Ends (fun depth => eval depth (.listOfCalls home' g items) f) s (.ok o) s') ∧
      (Ends (fun depth => call depth (.primitive .map home) [g, .list items]) s (.ok o) s' ↔
        ∃ results, InTurn (fun item => Gives g [item]) items s results s' ∧
          o = some (.list results))) ∧
    ∀ e s',
      (Ends (fun depth => call depth (.primitive .map home) [g, .list items]) s (.error e) s' ↔
        CallsFail (fun item => .type (.unmapped g item)) g items s e s') ∧
      (Ends (fun depth => eval depth (.listOfCalls home' g items) f) s (.error e) s' ↔
        CallsFail (fun item => .type (.noValue (g.calling item))) g items s e s') := by
  have hcalls (item : Value) := call_stable g [item]
  have hevals (item : Value) := eval_stable (g.calling item) f
  simp only [call_map hg, ends_listOfCalls_iff]
  refine ⟨fun o s' => ⟨?_, ends_listed_ok_iff hcalls⟩,
    fun e s' => ⟨ends_listed_error_iff hcalls, ?_⟩⟩
  · rw [ends_listed_ok_iff hcalls, ends_listed_ok_iff hevals]
    simp only [ends_calling_iff hg]
  · rw [ends_listed_error_iff hevals]
    simp only [ends_calling_iff hg]
    rfl

/-- The body of the closure is a definition, so a call of it produces nothing. Mapped over two items
it is called once: both runs fail with that call, each in its own words, and what it has defined in
its frame stays. -/
theorem map_eq_calls_nothing :
    let s := Store.empty.pushEmpty
    let c : Value := .closure 0 ["x"] (.list [.special .define, .symbol "y", .integer 7]) 0
    let items : List Value := [.integer 1, .integer 2]
    let s' := (s.pushNested ["x"] [.integer 1] 0).define 1 "y" (.integer 7)
    c.isProcedure = true ∧
      Ends (fun depth => call depth (.primitive .map 0) [c, .list items]) s
        (.error (.type (.unmapped c (.integer 1)))) s' ∧
      Ends (fun depth => eval depth (.listOfCalls 0 c items) 0) s
        (.error (.type (.noValue (c.calling (.integer 1))))) s' := by
  intro s c items s'
  have hcall : Ends (fun depth => call depth c [.integer 1]) s (.ok none) s' :=
    ⟨2, call_closure rfl 2 _ 0 s⟩
  have hfails (nothing : Value → EvalError) :
      CallsFail nothing c items s (nothing (.integer 1)) s' :=
    ⟨[], .integer 1, [.integer 2], [], s, rfl, .nil, .inr ⟨hcall, rfl⟩⟩
  obtain ⟨-, herrors⟩ := map_eq_calls (g := c) rfl items 0 0 0 s
  exact ⟨rfl, (herrors _ s').1.mpr (hfails _), (herrors _ s').2.mpr (hfails _)⟩

end ScopedLisp
