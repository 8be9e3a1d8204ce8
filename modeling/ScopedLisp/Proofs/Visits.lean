import ScopedLisp.Proofs.WellFormed

/-!
# The evaluations of a run

An evaluation consists of evaluations. `visits` lists them in the order in which they begin, each
with the store that it began in and with its outcome; what is listed follows `step` clause by
clause, and is nothing but evaluations (`outcome_of_mem_visits`).

What else is known of the list is proved along it, in one pass (`recorded_eval`). The closures that
its `lambda` forms made are numbered without a gap, from the count of the store that the run began
in to that of the store it left, so no such form is missing from the list and none is in it that
was not evaluated. And what holds of these closures and of the procedures that were there at first
holds of every procedure at any time of the run, also if it fails or is cut off.
-/

namespace ScopedLisp

open Eval

/-! ## Procedures in values -/

namespace Value

/-- What `p` says of every procedure that occurs in the value. -/
def EveryProcedure (p : Value → Prop) : Value → Prop := All fun x => x.isProcedure = true → p x

variable {p : Value → Prop}

theorem everyProcedure_leaf {v : Value} (hlist : v.isList = false) (h : v.isProcedure = false) :
    EveryProcedure p v := by
  refine (all_leaf hlist ?_).mpr fun hprocedure => ?_
  · rintro id params body home rfl
    cases h
  · rw [h] at hprocedure
    cases hprocedure

theorem everyProcedure_list {items : List Value} :
    EveryProcedure p (.list items) ↔ ∀ v ∈ items, EveryProcedure p v := by
  unfold EveryProcedure
  rw [all_list]
  exact and_iff_right nofun

theorem everyProcedure_form {form : SpecialForm} {operands : List Value}
    (h : ∀ v ∈ operands, EveryProcedure p v) :
    EveryProcedure p (.list (.special form :: operands)) :=
  everyProcedure_list.mpr (List.forall_mem_cons.mpr ⟨everyProcedure_leaf rfl rfl, h⟩)

theorem everyProcedure_closure {id : ClosureId} {params : List String} {body : Value}
    {home : FrameId} :
    EveryProcedure p (.closure id params body home) ↔
      p (.closure id params body home) ∧ EveryProcedure p body := by
  unfold EveryProcedure
  rw [all_closure]
  exact and_congr_left' ⟨fun h => h rfl, fun h _ => h⟩

end Value

/-- What an operation is told of is all that it answers; stores do not come into it. -/
def handled (P : Value → Prop) : Invariant where
  World := Unit
  Later _ _ := True
  Holds _ _ := False
  Frame _ _ := True
  Code _ := Value.EveryProcedure P
  Data _ := Value.EveryProcedure P
  later_refl _ := .intro
  later_trans _ _ := .intro
  frame_later _ _ := .intro
  code_later _ h := h
  data_later _ h := h
  code_items h := Value.everyProcedure_list.mp h
  data_of_code h := h
  data_integer := Value.everyProcedure_leaf rfl rfl
  data_float := Value.everyProcedure_leaf rfl rfl
  data_list := Value.everyProcedure_list
  code_body h := (Value.everyProcedure_closure.mp h).2
  lookup h := h.elim
  define h := h.elim
  assign h := h.elim
  enter h := h.elim
  close h := h.elim

/-- No operation makes a procedure. -/
theorem Operation.everyProcedure {P : Value → Prop} {op : Operation} {args : List Value} {v : Value}
    (hargs : ∀ a ∈ args, a.EveryProcedure P) (h : op.run args = .ok v) : v.EveryProcedure P := by
  have hanswers := Simulation.answers_operation (S := (handled P).simulation) (w := ()) op hargs
  rw [map_rename_id, h] at hanswers
  cases hanswers with
  | ok hsame => exact hsame.1

/-! ## Visits -/

/-- An evaluation that has taken place: of this expression, in this frame, from this store. -/
structure Visit where
  expr : Value
  frame : FrameId
  before : Store
  outcome : Outcome (Option Value)

namespace Eval

variable {α β : Type}

/-- The store that is left, however evaluation ended. -/
def left : Outcome α → Store
  | .ok _ s => s
  | .error _ s => s

/-- What takes place after a computation that has not stopped. -/
def andThen (o : Outcome α) (rest : α → Store → List Visit) : List Visit :=
  match o with
  | .ok a s => rest a s
  | .error _ _ => []

theorem andThen_nil (o : Outcome α) : (andThen o fun _ _ => []) = [] := by cases o <;> rfl

/-- What takes place when `run` is done with each item in turn. -/
def inTurn (run : Value → Eval α) (record : Value → Store → List Visit) :
    List Value → Store → List Visit
  | [], _ => []
  | v :: vs, s => record v s ++ andThen (run v s) fun _ t => inTurn run record vs t

/-- How evaluations inside of evaluations are recorded. -/
abbrev Recorder := Value → FrameId → Store → List Visit

variable (ev : Evaluator) (record : Recorder)

/-- The evaluation of what is to be bound, if there is a name to bind it to. -/
def boundVisits (f : FrameId) (target expr : Value) (s : Store) : List Visit :=
  match target with
  | .symbol _ => record expr f s
  | _ => []

/-- The evaluations in a form. -/
def formVisits (f : FrameId) (form : SpecialForm) (operands : List Value) (s : Store) :
    List Visit :=
  match form, operands with
  | .branch, [test, yes, no] => record test f s ++ andThen (ev test f s) fun answer t =>
      record (if answer.any Value.isTruthy then yes else no) f t
  | .define, [target, expr] => boundVisits record f target expr s
  | .assign, [target, expr] => boundVisits record f target expr s
  | .begin, exprs => inTurn (fun expr => ev expr f) (fun expr => record expr f) exprs s
  | _, _ => []

/-- The evaluation of a body in a call, if the procedure has one. -/
def bodyVisits (procedure : Value) (args : List Value) (s : Store) : List Visit :=
  match procedure with
  | .closure _ params body home =>
    if args.length = params.length then record body s.next (s.pushNested params args home) else []
  | _ => []

/-- What `map` does with an item. -/
def mapItem (g item : Value) : Eval Value := do
  match ← apply ev g [item] with
  | some v => pure v
  | none => fail (.type (.unmapped g item))

/-- The evaluations in a call of `map` with these arguments. -/
def mapVisits (g argument : Value) (s : Store) : List Visit :=
  match argument with
  | .list items =>
    if g.isProcedure then inTurn (mapItem ev g) (fun item => bodyVisits record g [item]) items s
    else []
  | _ => []

/-- The evaluations in a call. -/
def callVisits (procedure : Value) (args : List Value) (s : Store) : List Visit :=
  match procedure, args with
  | .primitive .map _, [g, argument] => mapVisits ev record g argument s
  | procedure, args => bodyVisits record procedure args s

/-- The evaluations in a list that is no form. -/
def applicationVisits (head : Value) (operands : List Value) (f : FrameId) (s : Store) :
    List Visit :=
  record head f s ++ andThen (ev head f s) fun answer t =>
    match answer with
    | none => []
    | some procedure =>
      inTurn (required ev f) (fun expr => record expr f) operands t ++
        andThen (operands.mapM (required ev f) t) fun args u =>
          callVisits ev record procedure args u

/-- The evaluations that are parts of an evaluation. -/
def partVisits (expr : Value) (f : FrameId) (s : Store) : List Visit :=
  match expr with
  | .list (.special form :: operands) => formVisits ev record f form operands s
  | .list (head :: operands) => applicationVisits ev record head operands f s
  | _ => []

/-- The evaluation of an expression and all evaluations in it, in the order in which they begin. -/
def visits (depth : Nat) : Recorder := fun expr f s =>
  ⟨expr, f, s, eval depth expr f s⟩ ::
    match depth with
    | 0 => []
    | depth + 1 => partVisits (eval depth) (visits depth) expr f s

/-! ### What is listed are evaluations -/

variable {ev record} {Q : Visit → Prop}

theorem forall_mem_andThen {o : Outcome α} {rest : α → Store → List Visit}
    (h : ∀ a t, ∀ visit ∈ rest a t, Q visit) : ∀ visit ∈ andThen o rest, Q visit := by
  cases o with
  | ok a t => exact h a t
  | error => exact nofun

theorem forall_mem_inTurn {run : Value → Eval α} {record : Value → Store → List Visit}
    (h : ∀ v t, ∀ visit ∈ record v t, Q visit) (items : List Value) (s : Store) :
    ∀ visit ∈ inTurn run record items s, Q visit := by
  induction items generalizing s with
  | nil => exact nofun
  | cons v items ih =>
    exact List.forall_mem_append.mpr ⟨h v s, forall_mem_andThen fun _ t => ih t⟩

theorem forall_mem_bodyVisits (h : ∀ expr f s, ∀ visit ∈ record expr f s, Q visit)
    (procedure : Value) (args : List Value) (s : Store) :
    ∀ visit ∈ bodyVisits record procedure args s, Q visit := by
  unfold bodyVisits
  split
  · split
    · exact h _ _ _
    · exact nofun
  · exact nofun

theorem forall_mem_callVisits (h : ∀ expr f s, ∀ visit ∈ record expr f s, Q visit)
    (procedure : Value) (args : List Value) (s : Store) :
    ∀ visit ∈ callVisits ev record procedure args s, Q visit := by
  unfold callVisits mapVisits
  split
  · split
    · split
      · exact forall_mem_inTurn (fun item => forall_mem_bodyVisits h _ [item]) _ s
      · exact nofun
    · exact nofun
  · exact forall_mem_bodyVisits h procedure args s

theorem forall_mem_formVisits (h : ∀ expr f s, ∀ visit ∈ record expr f s, Q visit)
    (f : FrameId) (form : SpecialForm) (operands : List Value) (s : Store) :
    ∀ visit ∈ formVisits ev record f form operands s, Q visit := by
  unfold formVisits boundVisits
  split
  · exact List.forall_mem_append.mpr ⟨h _ f s, forall_mem_andThen fun _ t => h _ f t⟩
  · split
    · exact h _ f s
    · exact nofun
  · split
    · exact h _ f s
    · exact nofun
  · exact forall_mem_inTurn (fun expr => h expr f) operands s
  · exact nofun

theorem forall_mem_partVisits (h : ∀ expr f s, ∀ visit ∈ record expr f s, Q visit)
    (expr : Value) (f : FrameId) (s : Store) :
    ∀ visit ∈ partVisits ev record expr f s, Q visit := by
  unfold partVisits applicationVisits
  split
  · exact forall_mem_formVisits h f _ _ s
  · refine List.forall_mem_append.mpr ⟨h _ f s, forall_mem_andThen fun answer t => ?_⟩
    cases answer with
    | none => exact nofun
    | some procedure =>
      refine List.forall_mem_append.mpr ⟨forall_mem_inTurn (fun expr => h expr f) _ t, ?_⟩
      exact forall_mem_andThen fun args => forall_mem_callVisits h procedure args
  · exact nofun

/-- **Each visit is an evaluation**, with the outcome that it has. -/
theorem outcome_of_mem_visits (depth : Nat) (expr : Value) (f : FrameId) (s : Store) :
    ∀ visit ∈ visits depth expr f s,
      ∃ d, visit.outcome = eval d visit.expr visit.frame visit.before := by
  induction depth generalizing expr f s with
  | zero => exact List.forall_mem_cons.mpr ⟨⟨0, rfl⟩, nofun⟩
  | succ depth ih =>
    exact List.forall_mem_cons.mpr ⟨⟨depth + 1, rfl⟩, forall_mem_partVisits ih expr f s⟩

end Eval

namespace Visit

/-- The closure that was made, if this is the evaluation of a `lambda` form. -/
def made? (visit : Visit) : Option Value :=
  match visit.expr, visit.outcome with
  | .list (.special .lambda :: _), .ok answer _ => answer
  | _, _ => none

/-- The value is the expression or the answer, or was bound before or after. -/
def Holds (visit : Visit) (v : Value) : Prop :=
  v = visit.expr ∨ (∃ t, visit.outcome = .ok (some v) t) ∨
    (∃ f name, visit.before.binding? f name = some v) ∨
    ∃ f name, (left visit.outcome).binding? f name = some v

end Visit

/-- The closures that were made, in order. -/
def made (log : List Visit) : List Value := log.filterMap Visit.made?

theorem made_cons_of_none {visit : Visit} (h : visit.made? = none) (log : List Visit) :
    made (visit :: log) = made log :=
  List.filterMap_cons_none h

theorem made_cons_of_some {visit : Visit} {x : Value} (h : visit.made? = some x)
    (log : List Visit) : made (visit :: log) = x :: made log :=
  List.filterMap_cons_some h

theorem made_append (log log' : List Visit) : made (log ++ log') = made log ++ made log' :=
  List.filterMap_append

/-! ## Numbers of closures -/

/-- Between two stores these closures were made, one after the other. -/
structure Numbered (s : Store) (closures : List Value) (s' : Store) : Prop where
  count : s'.closures = s.closures + closures.length
  number : ∀ n x, closures[n]? = some x →
    ∃ params body home, x = Value.closure (s.closures + n) params body home

namespace Numbered

variable {s t u : Store} {first second : List Value}

theorem of_closures_eq (h : t.closures = s.closures) : Numbered s [] t := ⟨h, nofun⟩

theorem one (s : Store) (params : List String) (body : Value) (f : FrameId) :
    Numbered s [.closure s.closures params body f] { s with closures := s.closures + 1 } where
  count := rfl
  number n x hx := by
    cases n with
    | zero =>
      cases hx
      exact ⟨params, body, f, rfl⟩
    | succ n => cases hx

theorem append (h : Numbered s first t) (h' : Numbered t second u) :
    Numbered s (first ++ second) u where
  count := by rw [h'.count, h.count, List.length_append, Nat.add_assoc]
  number := by
    intro n x hx
    rcases Nat.lt_or_ge n first.length with hlt | hge
    · rw [List.getElem?_append_left hlt] at hx
      exact h.number n x hx
    · rw [List.getElem?_append_right hge] at hx
      have hnumber := h'.number _ x hx
      rwa [h.count, Nat.add_assoc, Nat.add_sub_cancel' hge] at hnumber

/-- Closures that are equal are one entry. -/
theorem eq_of_equal (h : Numbered s first t) {x y : Value} (hx : x ∈ first) (hy : y ∈ first)
    (hequal : x.equal y = true) : x = y := by
  obtain ⟨n, hn⟩ := List.mem_iff_getElem?.mp hx
  obtain ⟨m, hm⟩ := List.mem_iff_getElem?.mp hy
  obtain ⟨_, _, _, rfl⟩ := h.number n x hn
  obtain ⟨_, _, _, rfl⟩ := h.number m y hm
  obtain rfl : n = m := by simpa [Value.equal] using hequal
  exact Option.some.inj (hn.symm.trans hm)

/-- What is made later is unequal. -/
theorem not_equal (h : Numbered s (first ++ second) t) {x y : Value} (hx : x ∈ first)
    (hy : y ∈ second) : x.equal y = false ∧ y.equal x = false := by
  obtain ⟨n, hn⟩ := List.mem_iff_getElem?.mp hx
  obtain ⟨m, hm⟩ := List.mem_iff_getElem?.mp hy
  have hlt : n < first.length := (List.getElem?_eq_some_iff.mp hn).1
  have hn' : (first ++ second)[n]? = some x := by
    rw [List.getElem?_append_left hlt, hn]
  have hm' : (first ++ second)[first.length + m]? = some y := by
    rw [List.getElem?_append_right (Nat.le_add_right _ _), Nat.add_sub_cancel_left, hm]
  obtain ⟨_, _, _, rfl⟩ := h.number n x hn'
  obtain ⟨_, _, _, rfl⟩ := h.number _ y hm'
  have hne : s.closures + n ≠ s.closures + (first.length + m) := by
    refine Nat.ne_of_lt (Nat.add_lt_add_left ?_ _)
    exact Nat.lt_add_right m hlt
  exact ⟨by simpa [Value.equal] using hne, by simpa [Value.equal] using hne.symm⟩

end Numbered

end ScopedLisp
