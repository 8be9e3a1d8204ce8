import ScopedLisp.Operation
import ScopedLisp.Proofs.Binding
import ScopedLisp.Proofs.Frames
import ScopedLisp.Proofs.Rows

/-!
# Values are handed on as they are

A value goes from place to place by being quoted, bound, looked up, passed to a procedure, put into
a list or taken out of one. None of these ways makes anything new of it. Each has its inversion
lemma here: from a run that has gone well, it says which value was there before and that it is the
very same now.

A procedure is equal to itself, so its copies are equal to it, whichever way they went
(`Copied.equal`). Of other values this cannot be said: a `NaN` that is bound twice differs from
itself.
-/

namespace ScopedLisp

open Eval

/-! ## Equality of procedures and lists -/

namespace Value

theorem equal_self_of_isProcedure {v : Value} (h : v.isProcedure = true) : v.equal v = true := by
  cases v with
  | primitive | closure => simp [equal]
  | _ => cases h

/-- On procedures, sameness is equality. -/
theorem same_eq_equal {a b : Value} (h : a.isProcedure = true) : a.same b = a.equal b := by
  cases a with
  | list => cases h
  | _ => rfl

theorem equalAll_iff {as bs : List Value} :
    equalAll as bs = true ↔ List.Forall₂ (fun a b => a.equal b = true) as bs := by
  induction as generalizing bs with
  | nil =>
    cases bs with
    | nil => simp [equalAll]
    | cons => exact ⟨nofun, nofun⟩
  | cons a as ih =>
    cases bs with
    | nil => exact ⟨nofun, nofun⟩
    | cons b bs => simp [equalAll, ih]

/-- Lists are equal item by item. -/
theorem equal_list_iff {as bs : List Value} :
    (list as).equal (list bs) = true ↔ List.Forall₂ (fun a b => a.equal b = true) as bs := by
  rw [equal, equalAll_iff]

end Value

/-! ## Forms and names -/

theorem hasValue_quote (s : Store) (f : FrameId) (v : Value) :
    HasValue f (.list [.special .quote, v]) s v s := ⟨1, rfl⟩

theorem hasValue_symbol {s : Store} {f : FrameId} {name : String} {v : Value}
    (h : s.get? f name = some v) : HasValue f (.symbol name) s v s := by
  refine ⟨1, ?_⟩
  show (some <$> lookup f name) s = _
  rw [map_eq_pure_bind, bind_apply, lookup_apply, h]
  rfl

namespace Store

variable {s t : Store} {f g : FrameId} {name : String} {v : Value}

/-- What a frame binds itself is seen from it. -/
theorem get?_of_binding? (h : s.binding? f name = some v) : s.get? f name = some v := by
  have hbinds : s.binds f name = true := by rw [binds, h]; rfl
  rw [get?, find?_of_binds hbinds, Option.bind_some, h]

theorem get?_push_self {frame : Frame} (h : frame.bindings.get? name = some v) :
    (s.push frame).get? s.next name = some v :=
  get?_of_binding? (by rw [binding?_push, if_pos rfl, h])

theorem binding?_define_self (hf : f < s.next) : (s.define f name v).binding? f name = some v := by
  rw [binding?_define s f f name name v hf, if_pos ⟨rfl, rfl⟩]

theorem get?_define_self (hf : f < s.next) : (s.define f name v).get? f name = some v :=
  get?_of_binding? (binding?_define_self hf)

/-- An assignment moves no look-up to another frame. -/
theorem find?_set? (h : s.set? f name v = some t) (g : FrameId) (other : String) :
    t.find? g other = s.find? g other := by
  have hbinds (g : FrameId) := binds_set? h g other
  obtain ⟨bound, hfind, rfl⟩ := Option.map_eq_some_iff.mp h
  rw [find?, find?, chain_define, funext hbinds]

/-- An assignment is seen from where it was made. -/
theorem get?_set? (h : s.set? f name v = some t) : t.get? f name = some v := by
  have hsame := find?_set? h f name
  obtain ⟨g, hfind, rfl⟩ := Option.map_eq_some_iff.mp h
  rw [get?, hsame, hfind, Option.bind_some,
    binding?_define_self (lt_next_of_binds (find?_binds hfind))]

end Store

variable {s s' : Store} {f : FrameId} {name : String} {expr : Value}

/-- `define` binds the value of its operand. -/
theorem Eval.Ends.defined {o : Option Value} (hf : f < s.next)
    (h : Ends (fun depth => eval depth (.list [.special .define, .symbol name, expr]) f) s (.ok o)
      s') :
    ∃ v s₁, HasValue f expr s v s₁ ∧
      s' = s₁.define f name v ∧ s'.get? f name = some v := by
  obtain ⟨-, v, s₁, hexpr, rfl⟩ := ends_define_ok_iff.mp h
  have hlt : f < s₁.next := Nat.lt_of_lt_of_le hf (Ends.extends_eval hexpr).next_le
  exact ⟨v, s₁, hexpr, rfl, Store.get?_define_self hlt⟩

/-- `set!` puts the value of its operand in the place of what was bound. -/
theorem Eval.Ends.assigned {o : Option Value}
    (h : Ends (fun depth => eval depth (.list [.special .assign, .symbol name, expr]) f) s (.ok o)
      s') :
    ∃ v s₁, HasValue f expr s v s₁ ∧
      s₁.set? f name v = some s' ∧ s'.get? f name = some v := by
  obtain ⟨-, v, s₁, g, hexpr, hfind, rfl⟩ := ends_assign_ok_iff.mp h
  have hset : s₁.set? f name v = some (s₁.define g name v) := by
    rw [Store.set?, hfind, Option.map_some]
  exact ⟨v, s₁, hexpr, hset, Store.get?_set? hset⟩

/-! ## Calls -/

theorem Bindings.get?_ofPairs_of_last {names : List String} {values : List Value} {i : Nat}
    {v : Value} (hname : names[i]? = some name) (hvalue : values[i]? = some v)
    (hlast : name ∉ names.drop (i + 1)) : (ofPairs names values).get? name = some v := by
  obtain ⟨hi, rfl⟩ := List.getElem?_eq_some_iff.mp hname
  obtain ⟨hj, rfl⟩ := List.getElem?_eq_some_iff.mp hvalue
  have hsplit : names.zip values = (names.take i).zip (values.take i) ++
      (names[i], values[i]) :: (names.drop (i + 1)).zip (values.drop (i + 1)) := by
    rw [← List.zip_cons_cons, ← List.zip_append (by simp; omega), ← List.drop_eq_getElem_cons hi,
      ← List.drop_eq_getElem_cons hj, List.take_append_drop, List.take_append_drop]
  refine get?_ofPairs_of_zip hsplit fun p hp heq => hlast ?_
  rw [← heq]
  exact (List.of_mem_zip hp).1

/-- A parameter is bound to its argument. Of equal names the last one counts. -/
theorem get?_pushNested {params : List String} {args : List Value} {home : FrameId} {i : Nat}
    {v : Value} (hparam : params[i]? = some name) (harg : args[i]? = some v)
    (hlast : name ∉ params.drop (i + 1)) :
    (s.pushNested params args home).get? s.next name = some v :=
  Store.get?_push_self (Bindings.get?_ofPairs_of_last hparam harg hlast)

/-! ## Primitives -/

/-- A call of an operation ends with what the operation answers, and leaves the store alone. -/
theorem ends_call_operation_iff {op : Operation} {home : FrameId} {args : List Value}
    {answer : Except EvalError (Option Value)} :
    Ends (fun depth => call depth (.primitive (.operation op) home) args) s answer s' ↔
      answer = some <$> op.run args ∧ s' = s := by
  have hcall (depth : Nat) : call depth (.primitive (.operation op) home) args =
      some <$> ofExcept (op.run args) := by
    rw [call, apply]
  simp only [hcall]
  cases op.run args with
  | ok v => exact ends_pure_iff
  | error e => exact Ends.iff (stable_const _) ⟨0, rfl⟩

/-- A call of the operation with these arguments ends with this value and in no other way, whatever
the store and whichever root frame the primitive is from. -/
def Operation.Answers (op : Operation) (args : List Value) (v : Value) : Prop :=
  ∀ (home : FrameId) (s s' : Store) (answer : Except EvalError (Option Value)),
    Ends (fun depth => call depth (.primitive (.operation op) home) args) s answer s' ↔
      answer = .ok (some v) ∧ s' = s

theorem Operation.answers_iff {op : Operation} {args : List Value} {v : Value} :
    op.Answers args v ↔ op.run args = .ok v := by
  simp only [Answers, ends_call_operation_iff]
  constructor
  · intro h
    obtain ⟨hanswer, -⟩ := (h 0 .empty .empty (.ok (some v))).mpr ⟨rfl, rfl⟩
    cases hrun : op.run args with
    | ok w =>
      rw [hrun] at hanswer
      cases hanswer
      rfl
    | error e =>
      rw [hrun] at hanswer
      cases hanswer
  · intro hrun home s s' answer
    rw [hrun]
    rfl

theorem Eval.Ends.operated {op : Operation} {home : FrameId} {args : List Value} {o : Option Value}
    (h : Ends (fun depth => call depth (.primitive (.operation op) home) args) s (.ok o) s') :
    ∃ v, o = some v ∧ op.run args = .ok v ∧ s' = s := by
  obtain ⟨hanswer, rfl⟩ := ends_call_operation_iff.mp h
  cases hrun : op.run args with
  | ok v =>
    rw [hrun] at hanswer
    exact ⟨v, Except.ok.inj hanswer, rfl, rfl⟩
  | error e =>
    rw [hrun] at hanswer
    cases hanswer

/-- What `car` and `cdr` take apart has items. -/
theorem eq_cons_of_run {op : Unary} (hop : op = .car ∨ op = .cdr) {args : List Value} {v : Value}
    (h : (Operation.unary op).run args = .ok v) :
    ∃ first rest, args = [.list (first :: rest)] := by
  match args with
  | [.list (first :: rest)] => exact ⟨first, rest, rfl⟩
  | [.list []] | [.integer _] | [.float _] | [.symbol _] | [.special _] | [.primitive ..]
  | [.closure ..] => rcases hop with rfl | rfl <;> cases h
  | [] | _ :: _ :: _ => cases h

theorem run_car_eq_ok_iff {args : List Value} {v : Value} :
    (Operation.unary .car).run args = .ok v ↔ ∃ rest, args = [.list (v :: rest)] := by
  constructor
  · intro h
    obtain ⟨first, rest, rfl⟩ := eq_cons_of_run (.inl rfl) h
    cases h
    exact ⟨rest, rfl⟩
  · rintro ⟨rest, rfl⟩
    rfl

theorem run_cdr_eq_ok_iff {args : List Value} {v : Value} :
    (Operation.unary .cdr).run args = .ok v ↔
      ∃ first rest, args = [.list (first :: rest)] ∧ v = .list rest := by
  constructor
  · intro h
    obtain ⟨first, rest, rfl⟩ := eq_cons_of_run (.inr rfl) h
    cases h
    exact ⟨first, rest, rfl, rfl⟩
  · rintro ⟨first, rest, rfl, rfl⟩
    rfl

/-- `map` wants a value from each call. -/
theorem call_map {g : Value} (hg : g.isProcedure = true) (items : List Value) (home : FrameId)
    (depth : Nat) :
    call depth (.primitive .map home) [g, .list items] =
      listed (fun item => .type (.unmapped g item)) (fun depth item => call depth g [item]) items
        depth := by
  rw [call, apply, if_pos hg]
  rfl

/-- What `map` goes well with is a procedure and a list. -/
theorem args_of_call_map {home : FrameId} {args : List Value} {o : Option Value}
    (h : Ends (fun depth => call depth (.primitive .map home) args) s (.ok o) s') :
    ∃ g items, g.isProcedure = true ∧ args = [g, .list items] := by
  obtain ⟨depth, hcall⟩ := h
  have happly : apply (eval depth) (.primitive .map home) args s = ended (.ok o) s' := hcall
  match args with
  | [g, argument] =>
    rw [apply] at happly
    split at happly
    · next hg =>
      obtain ⟨items, s₁, hitems, -⟩ := bind_eq_ended_ok happly
      cases argument with
      | list items => exact ⟨g, items, hg, rfl⟩
      | _ => cases hitems
    · cases (fail_eq_ended_iff.mp happly).1
  | [] | [_] | _ :: _ :: _ :: _ =>
    simp only [apply] at happly
    cases (fail_eq_ended_iff.mp happly).1

/-- `map` hands each item to the procedure alone, in turn, and lists what it answers. -/
theorem Eval.Ends.mapped {home : FrameId} {args : List Value} {o : Option Value}
    (h : Ends (fun depth => call depth (.primitive .map home) args) s (.ok o) s') :
    ∃ g items results, args = [g, .list items] ∧ o = some (.list results) ∧
      InTurn (fun item => Gives g [item]) items s results s' := by
  obtain ⟨g, items, hg, rfl⟩ := args_of_call_map h
  simp only [call_map hg] at h
  obtain ⟨results, hresults, ho⟩ := (ends_listed_ok_iff fun item => call_stable g [item]).mp h
  exact ⟨g, items, results, rfl, ho, hresults⟩

/-! ## Copies -/

/-- `y` stands where the program has put `x`: it was quoted, bound, looked up or passed, or it is an
item of a list that was made of a row with `x` in it. -/
inductive Copied (x : Value) : Value → Prop
  | quoted {s s' : Store} {f : FrameId} {y : Value}
      (h : HasValue f (.list [.special .quote, x]) s y s') : Copied x y
  | defined {s s₁ s' : Store} {f : FrameId} {name : String} {expr y : Value} {o : Option Value}
      (hf : f < s.next) (hexpr : HasValue f expr s x s₁)
      (h : Ends (fun depth => eval depth (.list [.special .define, .symbol name, expr]) f) s
        (.ok o) s') (hget : s'.get? f name = some y) : Copied x y
  | assigned {s s₁ s' : Store} {f : FrameId} {name : String} {expr y : Value} {o : Option Value}
      (hexpr : HasValue f expr s x s₁)
      (h : Ends (fun depth => eval depth (.list [.special .assign, .symbol name, expr]) f) s
        (.ok o) s') (hget : s'.get? f name = some y) : Copied x y
  | lookedUp {s s' : Store} {f : FrameId} {name : String} {y : Value}
      (hget : s.get? f name = some x) (h : HasValue f (.symbol name) s y s') : Copied x y
  | passed {s t : Store} {f home : FrameId} {params : List String} {args : List Value} {i : Nat}
      {name : String} {y : Value} (henter : enter params args home s = .ok f t)
      (hparam : params[i]? = some name) (hlast : name ∉ params.drop (i + 1))
      (harg : args[i]? = some x) (hget : t.get? f name = some y) : Copied x y
  | listed {s s' : Store} {home : FrameId} {args items : List Value} {i : Nat} {y : Value}
      (h : Gives (.primitive (.operation .list) home) args s (.list items) s')
      (harg : args[i]? = some x) (hitem : items[i]? = some y) : Copied x y
  | consed {s s' : Store} {home : FrameId} {first : Value} {rest items : List Value} {i : Nat}
      {y : Value}
      (h : Gives (.primitive (.operation (.binary .cons)) home) [first, .list rest] s
        (.list items) s')
      (harg : (first :: rest)[i]? = some x) (hitem : items[i]? = some y) : Copied x y
  | car {s s' : Store} {home : FrameId} {items : List Value} {y : Value}
      (h : Gives (.primitive (.operation (.unary .car)) home) [.list items] s y s')
      (hitem : items[0]? = some x) : Copied x y
  | cdr {s s' : Store} {home : FrameId} {items rest : List Value} {i : Nat} {y : Value}
      (h : Gives (.primitive (.operation (.unary .cdr)) home) [.list items] s (.list rest) s')
      (hitem : items[i + 1]? = some x) (hrest : rest[i]? = some y) : Copied x y
  | mapped {s s₁ s' : Store} {home : FrameId} {g : Value} {items answers results : List Value}
      {i : Nat} {y : Value}
      (hanswers : InTurn (fun item => Gives g [item]) items s answers s₁)
      (h : Gives (.primitive .map home) [g, .list items] s (.list results) s')
      (hanswer : answers[i]? = some x) (hresult : results[i]? = some y) : Copied x y

/-- **A copy is the value itself.** -/
theorem Copied.eq {x y : Value} (h : Copied x y) : y = x := by
  cases h with
  | quoted h =>
    exact (h.unique (hasValue_quote _ _ x)).1
  | defined hf hexpr h hget =>
    obtain ⟨v, s₁, hv, -, hbound⟩ := h.defined hf
    obtain ⟨rfl, -⟩ := hexpr.unique hv
    exact Option.some.inj (hget.symm.trans hbound)
  | assigned hexpr h hget =>
    obtain ⟨v, s₁, hv, -, hbound⟩ := h.assigned
    obtain ⟨rfl, -⟩ := hexpr.unique hv
    exact Option.some.inj (hget.symm.trans hbound)
  | lookedUp hget h =>
    exact (h.unique (hasValue_symbol hget)).1
  | passed henter hparam hlast harg hget =>
    cases henter
    exact Option.some.inj (hget.symm.trans (get?_pushNested hparam harg hlast))
  | listed h harg hitem =>
    obtain ⟨v, ho, hrun, -⟩ := Ends.operated h
    cases ho
    cases hrun
    exact Option.some.inj (hitem.symm.trans harg)
  | consed h harg hitem =>
    obtain ⟨v, ho, hrun, -⟩ := Ends.operated h
    cases ho
    cases hrun
    exact Option.some.inj (hitem.symm.trans harg)
  | car h hitem =>
    obtain ⟨v, ho, hrun, -⟩ := Ends.operated h
    cases ho
    obtain ⟨rest, hitems⟩ := run_car_eq_ok_iff.mp hrun
    cases hitems
    exact Option.some.inj hitem
  | cdr h hitem hrest =>
    obtain ⟨v, ho, hrun, -⟩ := Ends.operated h
    cases ho
    obtain ⟨first, rest, hitems, hv⟩ := run_cdr_eq_ok_iff.mp hrun
    cases hitems
    cases hv
    exact Option.some.inj (hrest.symm.trans hitem)
  | mapped hanswers h hanswer hresult =>
    obtain ⟨g, items, results, hargs, ho, hresults⟩ := Ends.mapped h
    cases hargs
    cases ho
    obtain ⟨rfl, -⟩ := hanswers.unique hresults Gives.unique
    exact Option.some.inj (hresult.symm.trans hanswer)

/-- Copies of a procedure are equal to it. -/
theorem Copied.equal {x y : Value} (h : Copied x y) (hx : x.isProcedure = true) :
    y.equal x = true ∧ y.same x = true := by
  cases h.eq
  rw [Value.same_eq_equal hx]
  exact ⟨Value.equal_self_of_isProcedure hx, Value.equal_self_of_isProcedure hx⟩

end ScopedLisp
