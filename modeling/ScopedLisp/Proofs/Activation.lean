import ScopedLisp.Proofs.Rows
import ScopedLisp.Proofs.Visits

/-!
# Where new frames come from

Evaluation takes nothing back: frames stay, each in its scope, and names stay bound
(`Store.Extends`). And it makes a frame at one place only, where a closure is called. Which calls
are made is read off from the evaluations that take place: an application calls the value of its
head with those of its operands (`Visit.Makes`), and a call of `map` calls its procedure with one
item after the other (`ComesTo`).

So every new frame has a call to show for it (`Store.IsActivation`): it had the next number when
the call began, it lies in the frame that the closure was made in, and the body of the closure was
evaluated in it. Where the caller was does not come into it.
-/

namespace ScopedLisp

open Eval

/-! ## What evaluation does not take back -/

/-- The frames of `s` are there in `t`, each in the same scope, and bind all that they bound. -/
structure Store.Extends (s t : Store) : Prop where
  next_le : s.next ≤ t.next
  outer : ∀ f < s.next, t.outer? f = s.outer? f
  binds : ∀ f name, s.binds f name → t.binds f name

namespace Store

variable {s t u : Store}

theorem Extends.refl (s : Store) : s.Extends s where
  next_le := Nat.le_refl _
  outer _ _ := rfl
  binds _ _ h := h

theorem Extends.trans (h : s.Extends t) (h' : t.Extends u) : s.Extends u where
  next_le := Nat.le_trans h.next_le h'.next_le
  outer f hf := by rw [h'.outer f (Nat.lt_of_lt_of_le hf h.next_le), h.outer f hf]
  binds f name hb := h'.binds f name (h.binds f name hb)

/-- A definition binds its own name in its own frame, and nothing else is bound anew. -/
theorem binds_define (s : Store) (f g : FrameId) (name other : String) (v : Value) :
    (s.define f name v).binds g other =
      (decide (f = g ∧ name = other ∧ f < s.next) || s.binds g other) := by
  rw [binds, binding?_define_cases]
  by_cases h : f = g ∧ name = other ∧ f < s.next
  · rw [if_pos h, decide_eq_true h]
    rfl
  · rw [if_neg h, decide_eq_false h]
    rfl

theorem extends_define (s : Store) (f : FrameId) (name : String) (v : Value) :
    s.Extends (s.define f name v) where
  next_le := Nat.le_of_eq (next_define ..).symm
  outer g _ := outer?_define ..
  binds g other hb := by rw [binds_define, hb, Bool.or_true]

theorem extends_push (s : Store) (frame : Frame) : s.Extends (s.push frame) where
  next_le := by simp
  outer f hf := by rw [outer?_push, if_neg (Nat.ne_of_lt hf)]
  binds f name hb := by
    rw [binds, binding?_push, if_neg (Nat.ne_of_lt (lt_next_of_binds hb))]
    exact hb

theorem extends_count (s : Store) : s.Extends { s with closures := s.closures + 1 } where
  next_le := Nat.le_refl _
  outer _ _ := rfl
  binds _ _ hb := hb

end Store

/-! ## Calls -/

/-- Some calls, each by its procedure, its arguments and the store that it begins in. -/
abbrev Calls := Value → List Value → Store → Prop

/-- The calls that a call comes to with no evaluation in between: itself, and if it is one of `map`,
the calls of its procedure, each from the store that the one before it has left. -/
inductive ComesTo (procedure : Value) (args : List Value) (s : Store) : Calls
  | self : ComesTo procedure args s procedure args s
  | item {home : FrameId} {g item : Value} {done rest values : List Value} {t : Store}
      (hmap : procedure = .primitive .map home) (hargs : args = [g, .list (done ++ item :: rest)])
      (hg : g.isProcedure = true) (hdone : InTurn (fun item => Gives g [item]) done s values t) :
      ComesTo procedure args s g [item] t

/-- The evaluation makes this call: it is one of an application, its head and its operands have got
their values, and the call of the one with the others is it or comes to it. -/
def Visit.Makes (visit : Visit) : Calls := fun procedure args s =>
  ∃ head operands p values t u, visit.expr = .list (head :: operands) ∧
    (∀ form, head ≠ .special form) ∧ HasValue visit.frame head visit.before p t ∧
    InTurn (HasValue visit.frame) operands t values u ∧ ComesTo p values u procedure args s

/-- The calls that the evaluations of a log make. -/
def madeIn (log : List Visit) : Calls := fun procedure args s =>
  ∃ visit ∈ log, visit.Makes procedure args s

/-! ## Frames of calls -/

namespace Store

/-- The frame of `t` was made by one of the calls. It is a call of a closure that takes as many
arguments; the frame had the next number when it began; the body of the closure was evaluated in the
frame, in which the parameters were bound to the arguments; and the frame lies in the one that the
closure was made in. -/
def IsActivation (t : Store) (calls : Calls) (log : List Visit) (f : FrameId) : Prop :=
  ∃ id params body home args u outcome, calls (.closure id params body home) args u ∧
    args.length = params.length ∧ u.next = f ∧
    ⟨body, f, u.pushNested params args home, outcome⟩ ∈ log ∧
    t.outer? f = some home ∧ ∀ name ∈ params, t.binds f name

/-- What has become of `s`: nothing is lost, and every new frame was made by a call. -/
structure Activates (s : Store) (calls : Calls) (log : List Visit) (t : Store) : Prop where
  kept : s.Extends t
  made : ∀ f, s.next ≤ f → f < t.next → t.IsActivation calls log f

variable {s t u : Store} {calls : Calls} {log log' : List Visit} {f : FrameId}

theorem IsActivation.mono (h : t.IsActivation calls log f) (hlog : log ⊆ log') (hf : f < t.next)
    (hkept : t.Extends u) : u.IsActivation calls log' f := by
  obtain ⟨id, params, body, home, args, v, outcome, hcall, hlength, hnext, hvisit, houter,
    hbinds⟩ := h
  refine ⟨id, params, body, home, args, v, outcome, hcall, hlength, hnext, hlog hvisit, ?_,
    fun name hname => hkept.binds f name (hbinds name hname)⟩
  rw [hkept.outer f hf, houter]

/-- Where no frame is made there is none to account for. -/
theorem Activates.of_next_eq (hkept : s.Extends t) (hnext : t.next = s.next) :
    s.Activates calls log t where
  kept := hkept
  made _ hle hlt := absurd hlt (Nat.not_lt.mpr (hnext ▸ hle))

theorem Activates.refl (s : Store) : s.Activates calls log s := .of_next_eq (.refl s) rfl

theorem Activates.append (h : s.Activates calls log t) (h' : t.Activates calls log' u) :
    s.Activates calls (log ++ log') u where
  kept := h.kept.trans h'.kept
  made f hle hlt := by
    by_cases hf : f < t.next
    · exact (h.made f hle hf).mono (List.subset_append_left ..) hf h'.kept
    · exact (h'.made f (Nat.not_lt.mp hf) hlt).mono (List.subset_append_right ..) hlt (.refl u)

theorem Activates.cons (h : s.Activates calls log t) (visit : Visit) :
    s.Activates calls (visit :: log) t where
  kept := h.kept
  made f hle hlt := (h.made f hle hlt).mono (List.subset_cons_self ..) hlt (.refl t)

/-- A call of a closure makes one frame, and then its body is evaluated in that. -/
theorem Activates.call {id : ClosureId} {params : List String} {body : Value} {home : FrameId}
    {args : List Value} {outcome : Outcome (Option Value)}
    (hcall : calls (.closure id params body home) args s) (hlength : args.length = params.length)
    (hvisit : ⟨body, s.next, s.pushNested params args home, outcome⟩ ∈ log)
    (h : (s.pushNested params args home).Activates calls log t) : s.Activates calls log t where
  kept := (extends_push s _).trans h.kept
  made f hle hlt := by
    have hnext : (s.pushNested params args home).next = s.next + 1 := next_push ..
    -- the frame of this call, or one that the evaluation of the body has made
    rcases Nat.eq_or_lt_of_le hle with rfl | hlt'
    · refine ⟨id, params, body, home, args, s, outcome, hcall, hlength, rfl, hvisit, ?_,
        fun name hname => h.kept.binds s.next name ?_⟩
      · rw [h.kept.outer s.next (hnext ▸ Nat.lt_succ_self _), pushNested, outer?_push, if_pos rfl]
      · rw [pushNested, binds, binding?_push, if_pos rfl]
        exact Bindings.isSome_get?_ofPairs hlength hname
    · exact h.made f (hnext ▸ hlt') hlt

end Store

/-! ## Computations and their logs -/

/-- If the evaluations of the log make no other calls, then what becomes of `s` by `m` is accounted
for by the log. -/
def Eval.Activates {α : Type} (calls : Calls) (m : Eval α) (s : Store) (log : List Visit) : Prop :=
  (∀ visit ∈ log, ∀ procedure args u, visit.Makes procedure args u → calls procedure args u) →
    s.Activates calls log (left (m s))

variable {α β : Type} {calls : Calls} {m : Eval α} {k : α → Eval β} {s : Store} {log : List Visit}

theorem activates_of_next_eq (hkept : s.Extends (left (m s))) (hnext : (left (m s)).next = s.next) :
    Eval.Activates calls m s [] :=
  fun _ => .of_next_eq hkept hnext

theorem activates_idle (h : left (m s) = s) : Eval.Activates calls m s [] :=
  activates_of_next_eq (h.symm ▸ .refl s) (congrArg Store.next h)

theorem activates_pure (a : α) : Eval.Activates calls (pure a) s [] := activates_idle rfl

theorem activates_fail (e : EvalError) : Eval.Activates calls (fail e : Eval α) s [] :=
  activates_idle rfl

theorem activates_ofExcept (x : Except EvalError α) : Eval.Activates calls (ofExcept x) s [] := by
  cases x with
  | ok a => exact activates_pure a
  | error e => exact activates_fail e

theorem Eval.Activates.bind {rest : α → Store → List Visit} (hm : Eval.Activates calls m s log)
    (hk : ∀ a t, m s = .ok a t → Eval.Activates calls (k a) t (rest a t)) :
    Eval.Activates calls (m >>= k) s (log ++ andThen (m s) rest) := by
  intro hmakes
  rw [List.forall_mem_append] at hmakes
  have hfirst := hm hmakes.1
  rw [bind_apply]
  cases hrun : m s with
  | ok a t =>
    rw [hrun] at hfirst hmakes
    exact hfirst.append (hk a t hrun hmakes.2)
  | error stop t =>
    rw [hrun] at hfirst
    rw [andThen, List.append_nil]
    exact hfirst

theorem Eval.Activates.bind_idle (hm : Eval.Activates calls m s log)
    (hk : ∀ a t, m s = .ok a t → Eval.Activates calls (k a) t []) :
    Eval.Activates calls (m >>= k) s log := by
  have hbind := hm.bind hk
  rwa [andThen_nil, List.append_nil] at hbind

theorem Eval.Activates.map (hm : Eval.Activates calls m s log) (g : α → β) :
    Eval.Activates calls (g <$> m) s log := by
  rw [map_eq_pure_bind]
  exact hm.bind_idle fun a _ _ => activates_pure (g a)

/-- Each item is met in the store that those before it have left. -/
theorem activates_mapM {run : Value → Eval Value} {record : Value → Store → List Visit}
    {items : List Value}
    (h : ∀ done item rest values t, items = done ++ item :: rest →
      done.mapM run s = ended (.ok values) t → Eval.Activates calls (run item) t (record item t)) :
    Eval.Activates calls (items.mapM run) s (inTurn run record items s) := by
  induction items generalizing s with
  | nil => exact activates_pure []
  | cons v items ih =>
    rw [List.mapM_cons]
    refine (h [] v items [] s rfl rfl).bind fun a t hv => ?_
    refine (ih fun done item rest values u hitems hdone => ?_).bind_idle fun vs _ _ =>
      activates_pure (a :: vs)
    refine h (v :: done) item rest (a :: values) u (by rw [hitems]; rfl) ?_
    rw [List.mapM_cons]
    exact bind_eq_ended_iff.mpr (.inr ⟨a, t, hv, bind_eq_ended_iff.mpr (.inr ⟨_, u, hdone, rfl⟩)⟩)

theorem activates_foldlM {run : Value → Eval (Option Value)} {record : Value → Store → List Visit}
    {items : List Value} (h : ∀ v t, Eval.Activates calls (run v) t (record v t))
    (o : Option Value) :
    Eval.Activates calls (items.foldlM (fun _ v => run v) o) s (inTurn run record items s) := by
  induction items generalizing s o with
  | nil => exact activates_pure o
  | cons v items ih =>
    rw [List.foldlM_cons]
    exact (h v s).bind fun a t _ => ih a

/-! ## The evaluator -/

section Evaluator

variable {depth : Nat} {f : FrameId}
  (hev : ∀ expr f s, Eval.Activates calls (eval depth expr f) s (visits depth expr f s))

include hev in
theorem activates_required (expr : Value) :
    Eval.Activates calls (required (eval depth) f expr) s (visits depth expr f s) := by
  refine (hev expr f s).bind_idle fun o t _ => ?_
  cases o with
  | none => exact activates_fail _
  | some v => exact activates_pure v

include hev in
theorem activates_binding (form : SpecialForm) (target expr : Value)
    {act : String → Value → Eval Unit}
    (hact : ∀ name v t, Eval.Activates calls (act name v) t []) :
    Eval.Activates calls
      (do
        let name ← ofExcept (targetName form target)
        let v ← required (eval depth) f expr
        act name v
        pure none : Eval (Option Value)) s
      (boundVisits (visits depth) f target expr s) := by
  cases target with
  | symbol name =>
    show Eval.Activates calls
      (required (eval depth) f expr >>= fun v => act name v >>= fun _ => pure none) s _
    refine (activates_required hev expr).bind_idle fun v t _ => ?_
    exact (hact name v t).bind_idle fun _ _ _ => activates_pure none
  | _ => exact activates_fail _

theorem activates_define (name : String) (v : Value) :
    Eval.Activates calls (Eval.define f name v) s [] :=
  activates_of_next_eq (Store.extends_define ..) (Store.next_define ..)

theorem activates_assign (name : String) (v : Value) :
    Eval.Activates calls (Eval.assign f name v) s [] := by
  have happly := assign_apply f name v s
  cases hset : s.set? f name v with
  | none =>
    rw [hset] at happly
    exact activates_idle (congrArg left happly)
  | some t =>
    rw [hset] at happly
    obtain ⟨g, -, rfl⟩ := Option.map_eq_some_iff.mp hset
    refine activates_of_next_eq ?_ ?_
    · rw [happly]
      exact Store.extends_define ..
    · rw [happly]
      exact Store.next_define ..

/-- A `lambda` form makes no frame. -/
theorem activates_lambda (operands : List Value) :
    Eval.Activates calls (evalForm (eval depth) f .lambda operands) s [] := by
  match operands with
  | [params, body] =>
    refine Eval.Activates.map ((activates_ofExcept _).bind_idle fun names t _ => ?_) some
    exact activates_of_next_eq (Store.extends_count t) rfl
  | [] | [_] | _ :: _ :: _ :: _ => exact activates_fail _

include hev in
/-- No form makes a frame, save in the evaluations that it is made of. -/
theorem activates_evalForm (form : SpecialForm) (operands : List Value) :
    Eval.Activates calls (evalForm (eval depth) f form operands) s
      (formVisits (eval depth) (visits depth) f form operands s) := by
  cases form with
  | quote =>
    match operands with
    | [v] => exact activates_pure _
    | [] | _ :: _ :: _ => exact activates_fail _
  | branch =>
    match operands with
    | [test, yes, no] =>
      refine (hev test f s).bind fun answer t _ => ?_
      split
      · exact hev yes f t
      · exact hev no f t
    | [] | [_] | [_, _] | _ :: _ :: _ :: _ :: _ => exact activates_fail _
  | define =>
    match operands with
    | [target, expr] => exact activates_binding hev _ _ _ fun name v _ => activates_define name v
    | [] | [_] | _ :: _ :: _ :: _ => exact activates_fail _
  | assign =>
    match operands with
    | [target, expr] => exact activates_binding hev _ _ _ fun name v _ => activates_assign name v
    | [] | [_] | _ :: _ :: _ :: _ => exact activates_fail _
  | lambda =>
    have hnone : formVisits (eval depth) (visits depth) f .lambda operands s = [] := by
      cases operands <;> rfl
    rw [hnone]
    exact activates_lambda operands
  | begin => exact activates_foldlM (fun v t => hev v f t) none

theorem mem_visits_self (depth : Nat) (expr : Value) (f : FrameId) (s : Store) :
    ⟨expr, f, s, eval depth expr f s⟩ ∈ visits depth expr f s := by
  unfold visits
  exact List.mem_cons_self

include hev in
/-- What a procedure does when it is called from `s`, and does not call another one itself. -/
theorem activates_body {procedure : Value} {args : List Value}
    (hmap : ∀ home, procedure = .primitive .map home → ∃ item, args = [item])
    (hcall : calls procedure args s) :
    Eval.Activates calls (apply (eval depth) procedure args) s
      (bodyVisits (visits depth) procedure args s) := by
  cases procedure with
  | closure id params body home =>
    rw [apply, bodyVisits]
    split
    · next hlength =>
      intro hmakes
      have hbody := hev body s.next (s.pushNested params args home) hmakes
      exact .call hcall hlength (mem_visits_self ..) hbody
    · exact activates_fail _
  | primitive op home =>
    cases op with
    | operation op =>
      rw [apply]
      exact (activates_ofExcept _).map some
    | map =>
      obtain ⟨item, rfl⟩ := hmap home rfl
      simp only [apply]
      exact activates_fail _
  | integer | float | symbol | special | list =>
    rw [Simulation.apply_of_not_isProcedure rfl]
    exact activates_fail _

theorem gives_of_mapItem {g item v : Value} {t : Store}
    (h : mapItem (eval depth) g item s = ended (.ok v) t) : Gives g [item] s v t := by
  have hdemanded : Ends (fun depth => demanded (.type (.unmapped g item)) (call depth g [item])) s
      (.ok v) t := ⟨depth, h⟩
  exact ends_demanded_ok_iff.mp hdemanded

include hev in
theorem activates_mapItem {g item : Value} (hcall : calls g [item] s) :
    Eval.Activates calls (mapItem (eval depth) g item) s
      (bodyVisits (visits depth) g [item] s) := by
  refine (activates_body hev (fun _ _ => ⟨item, rfl⟩) hcall).bind_idle fun o t _ => ?_
  cases o with
  | none => exact activates_fail _
  | some v => exact activates_pure v

include hev in
theorem activates_map {g argument : Value} {home : FrameId}
    (hcalls : ∀ procedure args u,
      ComesTo (.primitive .map home) [g, argument] s procedure args u → calls procedure args u) :
    Eval.Activates calls (apply (eval depth) (.primitive .map home) [g, argument]) s
      (mapVisits (eval depth) (visits depth) g argument s) := by
  rw [apply]
  cases argument with
  | list items =>
    rw [mapVisits]
    split
    · next hg =>
      have hresults : Eval.Activates calls (items.mapM (mapItem (eval depth) g)) s
          (inTurn (mapItem (eval depth) g) (fun item => bodyVisits (visits depth) g [item]) items
            s) := by
        refine activates_mapM fun done item rest values t hitems hdone => ?_
        have hitem : calls g [item] t :=
          hcalls _ _ _ (.item rfl (by rw [hitems]) hg (.of_mapM gives_of_mapItem hdone))
        exact activates_mapItem hev hitem
      exact hresults.bind_idle fun results t _ => activates_pure (some (Value.list results))
    · exact activates_fail _
  | _ =>
    split
    · exact activates_fail _
    · exact activates_fail _

include hev in
/-- **A call makes the frames of the calls that it comes to.** -/
theorem activates_apply {procedure : Value} {args : List Value}
    (hcalls : ∀ p values u, ComesTo procedure args s p values u → calls p values u) :
    Eval.Activates calls (apply (eval depth) procedure args) s
      (callVisits (eval depth) (visits depth) procedure args s) := by
  cases procedure with
  | primitive op home =>
    cases op with
    | operation op => exact activates_body hev (by simp) (hcalls _ _ _ .self)
    | map =>
      match args with
      | [g, argument] => exact activates_map hev hcalls
      | [item] => exact activates_body hev (fun _ _ => ⟨item, rfl⟩) (hcalls _ _ _ .self)
      | [] | _ :: _ :: _ :: _ =>
        simp only [apply]
        exact activates_fail _
  | integer | float | symbol | special | closure | list =>
    exact activates_body hev (by simp) (hcalls _ _ _ .self)

include hev in
/-- The calls of an application are those that its head and operands lead to. -/
theorem activates_application {head : Value} (hhead : ∀ form, head ≠ .special form)
    {operands : List Value} {outcome : Outcome (Option Value)}
    (hcalls : ∀ procedure args u,
      Visit.Makes ⟨.list (head :: operands), f, s, outcome⟩ procedure args u →
      calls procedure args u) :
    Eval.Activates calls
      (do
        match ← eval depth head f with
        | none => fail (.notCallable (.noValue head))
        | some procedure =>
          let args ← operands.mapM (required (eval depth) f)
          apply (eval depth) procedure args) s
      (applicationVisits (eval depth) (visits depth) head operands f s) := by
  refine (hev head f s).bind fun answer t hanswer => ?_
  cases answer with
  | none => exact activates_fail _
  | some p =>
    have hoperands : Eval.Activates calls (operands.mapM (required (eval depth) f)) t
        (inTurn (required (eval depth) f) (fun expr => visits depth expr f) operands t) :=
      activates_mapM fun _ expr _ _ u _ _ => activates_required hev expr
    refine hoperands.bind fun args u hargs => ?_
    refine activates_apply hev fun procedure values v hcomes => ?_
    have hvalue {expr w : Value} {t u : Store}
        (h : required (eval depth) f expr t = ended (.ok w) u) : HasValue f expr t w u :=
      ends_required_ok_iff.mp ⟨depth, h⟩
    exact hcalls procedure values v
      ⟨head, operands, p, args, t, u, rfl, hhead, ⟨depth, hanswer⟩, .of_mapM hvalue hargs, hcomes⟩

include hev in
theorem activates_step {expr : Value} {outcome : Outcome (Option Value)}
    (hcalls : ∀ procedure args u, Visit.Makes ⟨expr, f, s, outcome⟩ procedure args u →
      calls procedure args u) :
    Eval.Activates calls (step (eval depth) expr f) s
      (partVisits (eval depth) (visits depth) expr f s) := by
  cases expr with
  | symbol name =>
    refine Eval.Activates.map (activates_idle ?_) some
    rw [lookup_apply]
    cases s.get? f name <;> rfl
  | special form => exact activates_fail _
  | list exprs =>
    match exprs with
    | [] => exact activates_pure none
    | head :: operands =>
      cases head with
      | special form => exact activates_evalForm hev form operands
      | _ => exact activates_application hev (by simp) hcalls
  | integer | float | primitive | closure => exact activates_pure _

end Evaluator

/-- **An evaluation makes the frames of the calls that are made in it.** -/
theorem activates_eval (depth : Nat) (expr : Value) (f : FrameId) (s : Store) :
    Eval.Activates calls (eval depth expr f) s (visits depth expr f s) := by
  induction depth generalizing expr f s with
  | zero => exact fun _ => .refl s
  | succ depth ih =>
    intro hmakes
    -- the calls of an application are its own, those of its parts are theirs by induction
    obtain ⟨hself, hparts⟩ := List.forall_mem_cons.mp hmakes
    exact (activates_step ih hself hparts).cons _

/-- **Every frame that an evaluation has made was made by a call in it**, however the evaluation
ended. -/
theorem activates_evaluation (depth : Nat) (expr : Value) (f : FrameId) (s : Store) :
    s.Activates (madeIn (visits depth expr f s)) (visits depth expr f s)
      (left (eval depth expr f s)) :=
  activates_eval depth expr f s fun visit hvisit _ _ _ hmakes => ⟨visit, hvisit, hmakes⟩

/-- Every frame that a call has made was made by a call in its evaluations or by one that the call
comes to itself. -/
theorem activates_call (depth : Nat) (procedure : Value) (args : List Value) (s : Store) :
    let log := callVisits (eval depth) (visits depth) procedure args s
    s.Activates (fun p values u => ComesTo procedure args s p values u ∨ madeIn log p values u) log
      (left (call depth procedure args s)) :=
  activates_apply (activates_eval depth) (fun _ _ _ => .inl)
    fun visit hvisit _ _ _ hmakes => .inr ⟨visit, hvisit, hmakes⟩

namespace Eval

variable {s' : Store}

theorem left_of_ended {answer : Except EvalError α} (h : m s = ended answer s') :
    left (m s) = s' := by
  rw [h]
  cases answer <;> rfl

/-- No evaluation takes back a frame, its scope or a name bound in it. -/
theorem Ends.extends_eval {expr : Value} {f : FrameId} {answer : Except EvalError (Option Value)}
    (h : Ends (fun depth => eval depth expr f) s answer s') : s.Extends s' := by
  obtain ⟨depth, hrun⟩ := h
  exact left_of_ended hrun ▸ (activates_evaluation depth expr f s).kept

theorem Ends.extends_call {procedure : Value} {args : List Value}
    {answer : Except EvalError (Option Value)}
    (h : Ends (fun depth => call depth procedure args) s answer s') : s.Extends s' := by
  obtain ⟨depth, hrun⟩ := h
  exact left_of_ended hrun ▸ (activates_call depth procedure args s).kept

end Eval

end ScopedLisp
