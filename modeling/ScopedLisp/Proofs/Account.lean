import ScopedLisp.Proofs.Visits

/-!
# What is known of the procedures of a run

Every procedure in a run was there at first or is a closure that a `lambda` form of the run has
made. So what holds of these holds of every procedure, at any time and wherever it occurs.
`Recorded` says this of a computation and the visits that take place in it; the rules follow the
way in which computations are put together, as those of a comparison do, and the clauses follow the
evaluator (`recorded_eval`).

It is not only said of whole runs but also of every visit when it begins, when only the closures
made so far are known: which closures are there does not depend on what is done later.
-/

namespace ScopedLisp

open Eval

/-- `P` holds of every procedure in what the store binds. -/
abbrev Store.EveryProcedure (s : Store) (P : Value → Prop) : Prop :=
  s.AllBound fun _ _ v => v.EveryProcedure P

/-! ## Accounts -/

/-- What is known when a run from `s` that has made these visits has ended in `s'`. -/
structure Closed (P : Value → Prop) (s : Store) (log : List Visit) (s' : Store) : Prop where
  bound : s'.EveryProcedure P
  visits : ∀ visit ∈ log, ∀ v, visit.Holds v → v.EveryProcedure P
  numbered : Numbered s (made log) s'

/-- If `P` holds of the procedures that are bound before the run and of the closures made in it so
far, it holds of all that there are: when a visit begins, and in the end. -/
structure Account (P : Value → Prop) (s : Store) (log : List Visit) (s' : Store) : Prop where
  before : s.EveryProcedure P → ∀ earlier visit later, log = earlier ++ visit :: later →
    (∀ x ∈ made earlier, P x) → visit.before.EveryProcedure P
  closed : s.EveryProcedure P → (∀ x ∈ made log, P x) → Closed P s log s'

section Account

variable {P : Value → Prop} {s t u : Store} {log log' : List Visit}

theorem Closed.append (h : Closed P s log t) (h' : Closed P t log' u) :
    Closed P s (log ++ log') u where
  bound := h'.bound
  visits visit hvisit := by
    rcases List.mem_append.mp hvisit with hvisit | hvisit
    · exact h.visits visit hvisit
    · exact h'.visits visit hvisit
  numbered := by
    rw [made_append]
    exact h.numbered.append h'.numbered

/-- Where nothing is evaluated, the store is all that counts. -/
theorem account_nil (hbound : s.EveryProcedure P → t.EveryProcedure P)
    (hcount : t.closures = s.closures) : Account P s [] t where
  before _ earlier visit later hlog := by
    cases earlier <;> cases hlog
  closed hs _ := ⟨hbound hs, nofun, .of_closures_eq hcount⟩

/-- One run after another. What is known of the second may rest on the account of the first. -/
theorem Account.append (h : Account P s log t)
    (h' : s.EveryProcedure P → (∀ x ∈ made log, P x) → Account P t log' u) :
    Account P s (log ++ log') u where
  before hs earlier visit later hlog hmade := by
    rcases List.append_eq_append_iff.mp hlog with ⟨middle, rfl, hsecond⟩ | ⟨middle, hfirst, hsecond⟩
    · -- the visit is one of the second run
      rw [made_append, List.forall_mem_append] at hmade
      have hclosed := h.closed hs hmade.1
      exact (h' hs hmade.1).before hclosed.bound middle visit later hsecond hmade.2
    · cases middle with
      | nil =>
        rw [List.append_nil] at hfirst
        subst hfirst
        have hclosed := h.closed hs hmade
        exact (h' hs hmade).before hclosed.bound [] visit later hsecond.symm nofun
      | cons first middle =>
        cases hsecond
        exact h.before hs earlier visit middle hfirst hmade
  closed hs hmade := by
    rw [made_append, List.forall_mem_append] at hmade
    have hclosed := h.closed hs hmade.1
    exact hclosed.append ((h' hs hmade.1).closed hclosed.bound hmade.2)

end Account

/-- The run of `m` from `s` is as its account says, and the result is one that `D` allows. -/
structure Recorded {α : Type} (P : Value → Prop) (m : Eval α) (s : Store) (log : List Visit)
    (D : α → Prop) : Prop where
  account : Account P s log (left (m s))
  result : s.EveryProcedure P → (∀ x ∈ made log, P x) → ∀ a t, m s = .ok a t → D a

/-- What an evaluation answers, if anything, has no other procedures than `P` allows. -/
def AnswerOf (P : Value → Prop) (o : Option Value) : Prop := ∀ v, o = some v → v.EveryProcedure P

theorem AnswerOf.none {P : Value → Prop} : AnswerOf P none := nofun

theorem AnswerOf.some {P : Value → Prop} {v : Value} (h : v.EveryProcedure P) :
    AnswerOf P (some v) :=
  fun _ hv => Option.some.inj hv ▸ h

variable {α β : Type} {P : Value → Prop} {m : Eval α} {k : α → Eval β} {s : Store}
  {log : List Visit} {D : α → Prop} {E : β → Prop}

/-! ## Actions -/

/-- Nothing has taken place where the store is as it was. -/
theorem recorded_idle (hs : left (m s) = s)
    (hD : s.EveryProcedure P → ∀ a t, m s = .ok a t → D a) : Recorded P m s [] D where
  account := account_nil (by rw [hs]; exact id) (by rw [hs])
  result hbound _ := hD hbound

theorem recorded_pure {a : α} (h : D a) : Recorded P (pure a) s [] D :=
  recorded_idle rfl fun _ b _ hb => by cases hb; exact h

theorem recorded_fail (e : EvalError) : Recorded P (fail e : Eval α) s [] D :=
  recorded_idle rfl fun _ _ _ h => by cases h

theorem recorded_ofExcept {x : Except EvalError α} (h : ∀ a, x = .ok a → D a) :
    Recorded P (ofExcept x) s [] D := by
  cases x with
  | ok a => exact recorded_pure (h a rfl)
  | error e => exact recorded_fail e

theorem recorded_lookup (f : FrameId) (name : String) :
    Recorded P (lookup f name) s [] (Value.EveryProcedure P) := by
  have happly := lookup_apply f name s
  cases hget : s.get? f name with
  | none =>
    rw [hget] at happly
    exact recorded_idle (by rw [happly]; rfl) fun _ a t h => by rw [happly] at h; cases h
  | some v =>
    rw [hget] at happly
    refine recorded_idle (by rw [happly]; rfl) fun hbound a t h => ?_
    rw [happly] at h
    cases h
    obtain ⟨_, -, hv⟩ := hbound.get? hget
    exact hv

theorem recorded_define {f : FrameId} {name : String} {v : Value} (hv : v.EveryProcedure P) :
    Recorded P (Eval.define f name v) s [] fun _ => True where
  account := account_nil (fun hbound => hbound.define hv) rfl
  result _ _ _ _ _ := .intro

theorem recorded_assign {f : FrameId} {name : String} {v : Value} (hv : v.EveryProcedure P) :
    Recorded P (Eval.assign f name v) s [] fun _ => True where
  account := by
    rw [assign_apply, Store.set?]
    cases s.find? f name with
    | none => exact account_nil id rfl
    | some g => exact account_nil (fun hbound => hbound.define hv) rfl
  result _ _ _ _ _ := .intro

theorem recorded_enter {params : List String} {args : List Value} {home : FrameId}
    (hargs : ∀ a ∈ args, a.EveryProcedure P) :
    Recorded P (enter params args home) s [] fun _ => True where
  account := account_nil (fun hbound => hbound.push fun _ v hv =>
    hargs v (Bindings.mem_of_get?_ofPairs hv)) rfl
  result _ _ _ _ _ := .intro

/-! ## Sequences -/

/-- **What takes place in a sequence** takes place in its first step and then in its rest. -/
theorem Recorded.bind {rest : α → Store → List Visit} (hm : Recorded P m s log D)
    (hk : ∀ a t, m s = .ok a t → D a → Recorded P (k a) t (rest a t) E) :
    Recorded P (m >>= k) s (log ++ andThen (m s) rest) E := by
  have haccount := hm.account
  have hbind := bind_apply m k s
  cases hrun : m s with
  | ok a t =>
    rw [hrun] at haccount hbind
    refine ⟨?_, fun hs hmade b u hb => ?_⟩
    · rw [hbind]
      exact haccount.append fun hs hmade => (hk a t hrun (hm.result hs hmade a t hrun)).account
    · rw [hbind] at hb
      rw [made_append, List.forall_mem_append] at hmade
      have hrest := hk a t hrun (hm.result hs hmade.1 a t hrun)
      exact hrest.result (haccount.closed hs hmade.1).bound hmade.2 b u hb
  | error stop t =>
    rw [hrun] at haccount hbind
    rw [andThen, List.append_nil]
    refine ⟨?_, fun _ _ b u hb => ?_⟩
    · rw [hbind]
      exact haccount
    · rw [hbind] at hb
      cases hb

/-- A rest in which nothing is evaluated adds nothing. -/
theorem Recorded.bind_idle (hm : Recorded P m s log D)
    (hk : ∀ a t, m s = .ok a t → D a → Recorded P (k a) t [] E) :
    Recorded P (m >>= k) s log E := by
  have hbind := hm.bind hk
  rwa [andThen_nil, List.append_nil] at hbind

theorem Recorded.map {g : α → β} (hm : Recorded P m s log D) (hg : ∀ a, D a → E (g a)) :
    Recorded P (g <$> m) s log E := by
  rw [map_eq_pure_bind]
  exact hm.bind_idle fun a _ _ ha => recorded_pure (hg a ha)

theorem recorded_mapM {run : Value → Eval Value} {record : Value → Store → List Visit}
    {items : List Value}
    (h : ∀ v ∈ items, ∀ t, Recorded P (run v) t (record v t) (Value.EveryProcedure P)) :
    Recorded P (items.mapM run) s (inTurn run record items s)
      fun vs => ∀ v ∈ vs, v.EveryProcedure P := by
  induction items generalizing s with
  | nil => exact recorded_pure (by simp)
  | cons v items ih =>
    rw [List.mapM_cons]
    refine (h v List.mem_cons_self s).bind fun a t _ ha => ?_
    refine (ih fun w hw => h w (List.mem_cons_of_mem _ hw)).bind_idle fun vs _ _ hvs => ?_
    exact recorded_pure (List.forall_mem_cons.mpr ⟨ha, hvs⟩)

theorem recorded_foldlM {run : Value → Eval (Option Value)}
    {record : Value → Store → List Visit} {items : List Value} {o : Option Value}
    (h : ∀ v ∈ items, ∀ t, Recorded P (run v) t (record v t) (AnswerOf P)) (ho : AnswerOf P o) :
    Recorded P (items.foldlM (fun _ v => run v) o) s (inTurn run record items s) (AnswerOf P) := by
  induction items generalizing s o with
  | nil => exact recorded_pure ho
  | cons v items ih =>
    rw [List.foldlM_cons]
    refine (h v List.mem_cons_self s).bind fun a t _ ha => ?_
    exact ih (fun w hw => h w (List.mem_cons_of_mem _ hw)) ha

/-! ## Parts of an evaluation -/

/-- The recorder lists what takes place when the evaluator is used. -/
def Records (P : Value → Prop) (ev : Evaluator) (record : Recorder) : Prop :=
  ∀ expr f s, expr.EveryProcedure P →
    Recorded P (ev expr f) s (record expr f s) (AnswerOf P)

variable {ev : Evaluator} {record : Recorder} {f : FrameId}

theorem recorded_required (hev : Records P ev record) {expr : Value}
    (hexpr : expr.EveryProcedure P) :
    Recorded P (required ev f expr) s (record expr f s) (Value.EveryProcedure P) := by
  refine (hev expr f s hexpr).bind_idle fun o t _ ho => ?_
  cases o with
  | none => exact recorded_fail _
  | some v => exact recorded_pure (ho v rfl)

/-- `define` and `set!` evaluate nothing but their second operand, and that if the first is a
name. -/
theorem recorded_bindingForm (hev : Records P ev record) {form : SpecialForm} {target expr : Value}
    {act : String → Value → Eval Unit} (hexpr : expr.EveryProcedure P)
    (hact : ∀ name v t, v.EveryProcedure P → Recorded P (act name v) t [] fun _ => True) :
    Recorded P
      (do
        let name ← ofExcept (targetName form target)
        let v ← required ev f expr
        act name v
        pure none) s
      (boundVisits record f target expr s) (AnswerOf P) := by
  cases target with
  | symbol name =>
    show Recorded P (required ev f expr >>= fun v => act name v >>= fun _ => pure none) s _ _
    refine (recorded_required hev hexpr).bind_idle fun v t _ hv => ?_
    exact (hact name v t hv).bind_idle fun _ _ _ _ => recorded_pure .none
  | _ => exact recorded_fail _

/-- **The evaluations in a form** are those that are listed. -/
theorem recorded_evalForm (hev : Records P ev record) {form : SpecialForm}
    (hlambda : form ≠ .lambda) {operands : List Value}
    (hoperands : ∀ v ∈ operands, v.EveryProcedure P) :
    Recorded P (evalForm ev f form operands) s (formVisits ev record f form operands s)
      (AnswerOf P) := by
  cases form with
  | lambda => exact absurd rfl hlambda
  | quote =>
    match operands with
    | [v] => exact recorded_pure (.some (hoperands v (by simp)))
    | [] | _ :: _ :: _ => exact recorded_fail _
  | branch =>
    match operands with
    | [test, yes, no] =>
      refine (hev test f s (hoperands test (by simp))).bind fun answer t _ _ => ?_
      split
      · exact hev yes f t (hoperands yes (by simp))
      · exact hev no f t (hoperands no (by simp))
    | [] | [_] | [_, _] | _ :: _ :: _ :: _ :: _ => exact recorded_fail _
  | define =>
    match operands with
    | [target, expr] =>
      exact recorded_bindingForm hev (hoperands expr (by simp)) fun _ _ _ hv => recorded_define hv
    | [] | [_] | _ :: _ :: _ :: _ => exact recorded_fail _
  | assign =>
    match operands with
    | [target, expr] =>
      exact recorded_bindingForm hev (hoperands expr (by simp)) fun _ _ _ hv => recorded_assign hv
    | [] | [_] | _ :: _ :: _ :: _ => exact recorded_fail _
  | begin => exact recorded_foldlM (fun v hv t => hev v f t (hoperands v hv)) .none

/-! ## Calls -/

/-- A call of a closure evaluates its body, in the frame that it enters. -/
theorem recorded_closure (hev : Records P ev record) {id : ClosureId} {params : List String}
    {body : Value} {home : FrameId} {args : List Value} (hbody : body.EveryProcedure P)
    (hargs : ∀ a ∈ args, a.EveryProcedure P) :
    Recorded P (apply ev (.closure id params body home) args) s
      (bodyVisits record (.closure id params body home) args s) (AnswerOf P) := by
  rw [apply, bodyVisits]
  split
  · exact (recorded_enter hargs).bind fun g t _ _ => hev body g t hbody
  · exact recorded_fail _

theorem recorded_operation {op : Operation} {home : FrameId} {args : List Value}
    (hargs : ∀ a ∈ args, a.EveryProcedure P) :
    Recorded P (apply ev (.primitive (.operation op) home) args) s [] (AnswerOf P) := by
  rw [apply]
  refine Recorded.map (recorded_ofExcept fun v hv => ?_) fun v hv => .some hv
  exact Operation.everyProcedure hargs hv

/-- A call with one argument, such as those that `map` makes. -/
theorem recorded_apply_one (hev : Records P ev record) {g item : Value}
    (hg : g.EveryProcedure P) (hitem : item.EveryProcedure P) :
    Recorded P (apply ev g [item]) s (bodyVisits record g [item] s) (AnswerOf P) := by
  have hargs : ∀ a ∈ [item], a.EveryProcedure P := by simpa using hitem
  cases g with
  | closure => exact recorded_closure hev (Value.everyProcedure_closure.mp hg).2 hargs
  | primitive op home =>
    cases op with
    | operation op => exact recorded_operation hargs
    | map =>
      simp only [apply]
      exact recorded_fail _
  | integer | float | symbol | special | list =>
    rw [Simulation.apply_of_not_isProcedure rfl]
    exact recorded_fail _

theorem recorded_mapItem (hev : Records P ev record) {g item : Value}
    (hg : g.EveryProcedure P) (hitem : item.EveryProcedure P) :
    Recorded P (mapItem ev g item) s (bodyVisits record g [item] s) (Value.EveryProcedure P) := by
  refine (recorded_apply_one hev hg hitem).bind_idle fun o t _ ho => ?_
  cases o with
  | none => exact recorded_fail _
  | some v => exact recorded_pure (ho v rfl)

/-- A call of `map` calls its procedure with one item after the other. -/
theorem recorded_map (hev : Records P ev record) {g argument : Value} {home : FrameId}
    (hg : g.EveryProcedure P) (hargument : argument.EveryProcedure P) :
    Recorded P (apply ev (.primitive .map home) [g, argument]) s (mapVisits ev record g argument s)
      (AnswerOf P) := by
  rw [apply]
  cases argument with
  | list items =>
    have hitems := Value.everyProcedure_list.mp hargument
    rw [mapVisits]
    split
    · have hresults : Recorded P (items.mapM (mapItem ev g)) s _ _ := recorded_mapM fun v hv t =>
        recorded_mapItem hev hg (hitems v hv)
      refine hresults.bind_idle fun results t _ hall => ?_
      exact recorded_pure (.some (Value.everyProcedure_list.mpr hall))
    · exact recorded_fail _
  | _ =>
    split
    · exact recorded_fail _
    · exact recorded_fail _

/-- **The evaluations in a call** are those that are listed. -/
theorem recorded_apply (hev : Records P ev record) {procedure : Value} {args : List Value}
    (hprocedure : procedure.EveryProcedure P) (hargs : ∀ a ∈ args, a.EveryProcedure P) :
    Recorded P (apply ev procedure args) s (callVisits ev record procedure args s)
      (AnswerOf P) := by
  cases procedure with
  | closure => exact recorded_closure hev (Value.everyProcedure_closure.mp hprocedure).2 hargs
  | primitive op home =>
    cases op with
    | operation op => exact recorded_operation hargs
    | map =>
      match args with
      | [g, argument] =>
        exact recorded_map hev (hargs g (by simp)) (hargs argument (by simp))
      | [] | [_] | _ :: _ :: _ :: _ =>
        simp only [apply]
        exact recorded_fail _
  | integer | float | symbol | special | list =>
    rw [Simulation.apply_of_not_isProcedure rfl]
    exact recorded_fail _

/-! ## Expressions -/

theorem recorded_application (hev : Records P ev record) {head : Value} {operands : List Value}
    (hhead : head.EveryProcedure P) (hoperands : ∀ v ∈ operands, v.EveryProcedure P) :
    Recorded P
      (do
        match ← ev head f with
        | none => fail (.notCallable (.noValue head))
        | some procedure =>
          let args ← operands.mapM (required ev f)
          apply ev procedure args) s
      (applicationVisits ev record head operands f s) (AnswerOf P) := by
  refine (hev head f s hhead).bind fun answer t _ hanswer => ?_
  cases answer with
  | none => exact recorded_fail _
  | some procedure =>
    have hargs : Recorded P (operands.mapM (required ev f)) t _ _ :=
      recorded_mapM fun v hv u => recorded_required hev (hoperands v hv)
    exact hargs.bind fun args u _ hall => recorded_apply hev (hanswer procedure rfl) hall

/-- **The parts of an evaluation** are those that are listed. A `lambda` form has no parts. -/
theorem recorded_step (hev : Records P ev record) {expr : Value} (hexpr : expr.EveryProcedure P)
    (hlambda : ∀ operands, expr ≠ .list (.special .lambda :: operands)) :
    Recorded P (step ev expr f) s (partVisits ev record expr f s) (AnswerOf P) := by
  cases expr with
  | symbol name => exact (recorded_lookup f name).map fun _ => .some
  | special form => exact recorded_fail _
  | list exprs =>
    have hitems := Value.everyProcedure_list.mp hexpr
    match exprs with
    | [] => exact recorded_pure .none
    | head :: operands =>
      have hoperands : ∀ v ∈ operands, v.EveryProcedure P := fun v hv =>
        hitems v (List.mem_cons_of_mem _ hv)
      cases head with
      | special form =>
        refine recorded_evalForm hev ?_ hoperands
        rintro rfl
        exact hlambda operands rfl
      | _ => exact recorded_application hev (hitems _ List.mem_cons_self) hoperands
  | integer | float | primitive | closure => exact recorded_pure (.some hexpr)

/-- A `lambda` form makes the closure with the next number, or fails and does nothing. -/
theorem eval_lambda (depth : Nat) (operands : List Value) (f : FrameId) (s : Store) :
    (∃ params, ∃ body ∈ operands, eval (depth + 1) (.list (.special .lambda :: operands)) f s =
      .ok (some (.closure s.closures params body f)) { s with closures := s.closures + 1 }) ∨
    ∃ e, eval (depth + 1) (.list (.special .lambda :: operands)) f s = .error (.error e) s := by
  match operands with
  | [params, body] =>
    have hform : eval (depth + 1) (.list [.special .lambda, params, body]) f s =
        (some <$> makeLambda f params body) s := rfl
    rw [hform, makeLambda]
    cases hnames : parameterNames params with
    | ok names => exact .inl ⟨names, body, by simp, rfl⟩
    | error e => exact .inr ⟨e, rfl⟩
  | [] | [_] | _ :: _ :: _ :: _ => exact .inr ⟨_, rfl⟩

/-- All that a visit holds is known if its expression, its answer and its stores are. -/
theorem Visit.everyProcedure {visit : Visit} (hexpr : visit.expr.EveryProcedure P)
    (hanswer : ∀ a t, visit.outcome = .ok a t → AnswerOf P a)
    (hbefore : visit.before.AllBound fun _ _ v => v.EveryProcedure P)
    (hafter : (left visit.outcome).AllBound fun _ _ v => v.EveryProcedure P) {v : Value}
    (h : visit.Holds v) : v.EveryProcedure P := by
  rcases h with rfl | ⟨t, hv⟩ | ⟨g, name, hv⟩ | ⟨g, name, hv⟩
  · exact hexpr
  · exact hanswer _ t hv v rfl
  · exact hbefore g name v hv
  · exact hafter g name v hv

/-- An evaluation that makes no closure, with the evaluations that are parts of it. -/
theorem Recorded.visit {depth : Nat} {expr : Value} (hexpr : expr.EveryProcedure P)
    (hparts : Recorded P (eval depth expr f) s log (AnswerOf P))
    (hnone : Visit.made? ⟨expr, f, s, eval depth expr f s⟩ = none) :
    Recorded P (eval depth expr f) s (⟨expr, f, s, eval depth expr f s⟩ :: log) (AnswerOf P) where
  account := by
    refine ⟨fun hs earlier visit later hlog hmade => ?_, fun hs hmade => ?_⟩
    · cases earlier with
      | nil =>
        cases hlog
        exact hs
      | cons first earlier =>
        cases hlog
        rw [made_cons_of_none hnone] at hmade
        exact hparts.account.before hs earlier visit later rfl hmade
    · rw [made_cons_of_none hnone] at hmade
      have hclosed := hparts.account.closed hs hmade
      refine ⟨hclosed.bound, fun visit hvisit v hv => ?_, ?_⟩
      · rcases List.mem_cons.mp hvisit with rfl | hvisit
        · exact Visit.everyProcedure hexpr (hparts.result hs hmade) hs hclosed.bound hv
        · exact hclosed.visits visit hvisit v hv
      · rw [made_cons_of_none hnone]
        exact hclosed.numbered
  result hs hmade := by
    rw [made_cons_of_none hnone] at hmade
    exact hparts.result hs hmade

/-- The evaluation of a `lambda` form has no parts. -/
theorem visits_lambda (depth : Nat) (operands : List Value) :
    visits (depth + 1) (.list (.special .lambda :: operands)) f s =
      [⟨.list (.special .lambda :: operands), f, s,
        eval (depth + 1) (.list (.special .lambda :: operands)) f s⟩] := by
  rw [visits, partVisits]
  cases operands <;> rfl

/-- The one visit of a `lambda` form that has made its closure. -/
theorem recorded_made {m : Eval (Option Value)} {operands : List Value} {params : List String}
    {body : Value} (hoperands : ∀ v ∈ operands, v.EveryProcedure P) (hbody : body ∈ operands)
    (hrun : m s =
      .ok (some (.closure s.closures params body f)) { s with closures := s.closures + 1 }) :
    Recorded P m s [⟨.list (.special .lambda :: operands), f, s,
      .ok (some (.closure s.closures params body f)) { s with closures := s.closures + 1 }⟩]
      (AnswerOf P) := by
  have hexpr : Value.EveryProcedure P (.list (.special .lambda :: operands)) :=
    Value.everyProcedure_form hoperands
  have hanswer (h : P (.closure s.closures params body f)) :
      AnswerOf P (some (.closure s.closures params body f)) :=
    .some (Value.everyProcedure_closure.mpr ⟨h, hoperands body hbody⟩)
  refine ⟨?_, fun hs hmade a t h => ?_⟩
  · rw [hrun]
    refine ⟨fun hs earlier visit later hlog _ => ?_, fun hs hmade => ⟨hs, ?_, .one s params body f⟩⟩
    · cases earlier with
      | nil =>
        cases hlog
        exact hs
      | cons first earlier => simp at hlog
    · intro visit hvisit v hv
      obtain rfl := List.mem_singleton.mp hvisit
      refine Visit.everyProcedure hexpr (fun a t h => ?_) hs ?_ hv
      · cases h
        exact hanswer (hmade _ List.mem_cons_self)
      · exact hs
  · rw [hrun] at h
    cases h
    exact hanswer (hmade _ List.mem_cons_self)

theorem recorded_lambda {depth : Nat} {operands : List Value}
    (hoperands : ∀ v ∈ operands, v.EveryProcedure P) :
    Recorded P (eval (depth + 1) (.list (.special .lambda :: operands)) f) s
      (visits (depth + 1) (.list (.special .lambda :: operands)) f s) (AnswerOf P) := by
  rw [visits_lambda]
  rcases eval_lambda depth operands f s with ⟨params, body, hbody, hrun⟩ | ⟨e, hrun⟩
  · rw [hrun]
    exact recorded_made hoperands hbody hrun
  · refine Recorded.visit (Value.everyProcedure_form hoperands)
      (recorded_idle (by rw [hrun]; rfl) fun _ a t h => ?_) ?_
    · rw [hrun] at h
      cases h
    · rw [hrun]
      rfl

/-- **What is known of a run**, whatever is evaluated and however that ends: each procedure in it
was there at first or was made by a `lambda` form that is listed. -/
theorem recorded_eval (depth : Nat) : Records P (eval depth) (visits depth) := by
  induction depth with
  | zero =>
    intro expr f s hexpr
    refine Recorded.visit hexpr (recorded_idle rfl fun _ a t h => by cases h) ?_
    unfold Visit.made?
    split
    · next h => cases h
    · rfl
  | succ depth ih =>
    intro expr f s hexpr
    by_cases hlambda : ∃ operands, expr = .list (.special .lambda :: operands)
    · obtain ⟨operands, rfl⟩ := hlambda
      exact recorded_lambda fun v hv =>
        Value.everyProcedure_list.mp hexpr v (List.mem_cons_of_mem _ hv)
    · have hne : ∀ operands, expr ≠ .list (.special .lambda :: operands) := fun operands heq =>
        hlambda ⟨operands, heq⟩
      refine Recorded.visit hexpr (recorded_step ih hexpr hne) ?_
      unfold Visit.made?
      split
      · next operands _ _ h _ => exact absurd h (hne operands)
      · rfl

end ScopedLisp
