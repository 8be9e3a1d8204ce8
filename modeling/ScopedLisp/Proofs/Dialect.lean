import ScopedLisp.Proofs.Confinement

/-!
# The code that a run can get at

Only code is run: the expression, and the bodies of the closures that it can get at. Data never
becomes code, whatever is read, passed on or bound (`Store.CodeInReach`). So what does not occur in
that code is not looked up and not written by the run, however indirectly it goes about.

A `Dialect` says what may occur in code. Two runs that keep to a dialect are compared in stores
that differ in some cells, each a name in a frame, which code of the dialect neither writes nor
tells apart: the runs end alike and leave those cells as they found them (`Dialect.simulation`).
-/

namespace ScopedLisp

open Eval

/-- The code in reach of an evaluation: the expression, and the body of every closure that occurs
in the expression or in a binding of a frame in reach. -/
inductive Store.CodeInReach (s : Store) (f : FrameId) (expr : Value) : Value → Prop
  | expression : CodeInReach s f expr expr
  | carried {id : ClosureId} {params : List String} {body : Value} {home : FrameId}
      (h : Value.Occurs (.closure id params body home) expr) : CodeInReach s f expr body
  | bound {g : FrameId} {name : String} {v : Value} {id : ClosureId} {params : List String}
      {body : Value} {home : FrameId} (hg : s.Reaches [f] [expr] g)
      (hv : s.binding? g name = some v) (h : Value.Occurs (.closure id params body home) v) :
      CodeInReach s f expr body

/-- What holds of all parts of the expression, and of all bodies that the store binds anywhere, holds
of the code in reach. -/
theorem Store.CodeInReach.all {s : Store} {f : FrameId} {expr code : Value} {part : Value → Prop}
    (h : s.CodeInReach f expr code) (hexpr : expr.All part)
    (hbound : s.AllBound fun _ _ v => v.EveryClosure fun _ _ body _ => body.All part) :
    code.All part := by
  cases h with
  | expression => exact hexpr
  | carried hx => exact fun x hbody => hexpr x (.trans (.body hbody) hx)
  | bound hg hv hx => exact hbound _ _ _ hv _ _ _ _ hx

/-- The stores differ at most in what the cells of `W` hold. -/
structure Store.SameOutside (W : FrameId → String → Prop) (s t : Store) : Prop where
  next : t.next = s.next
  closures : t.closures = s.closures
  outer : ∀ f, t.outer? f = s.outer? f
  binding : ∀ {f name}, ¬ W f name → t.binding? f name = s.binding? f name

namespace Store

variable {s t : Store} {W : FrameId → String → Prop}

theorem SameOutside.refl (W : FrameId → String → Prop) (s : Store) : s.SameOutside W s where
  next := rfl
  closures := rfl
  outer _ := rfl
  binding _ := rfl

theorem SameOutside.symm (h : s.SameOutside W t) : t.SameOutside W s where
  next := h.next.symm
  closures := h.closures.symm
  outer f := (h.outer f).symm
  binding hW := (h.binding hW).symm

end Store

/-! ## Dialects -/

/-- What a run keeps to: frames, those yet to be made among them, and what may occur in code. -/
structure Dialect where
  frames : FrameId → Prop
  part : Value → Prop

namespace Dialect

/-- The closures in the value lie over frames of the dialect, and their bodies are written in it. -/
def Data (D : Dialect) (v : Value) : Prop :=
  v.EveryClosure fun _ _ body home => D.frames home ∧ body.All D.part

/-- The expression is written in the dialect. -/
def Code (D : Dialect) (expr : Value) : Prop := expr.All D.part ∧ D.Data expr

/-- All that the store offers to code of the dialect is data of the dialect. -/
structure Holds (D : Dialect) (s : Store) : Prop where
  fresh : ∀ {f}, s.next ≤ f → D.frames f
  outer : ∀ {f o}, D.frames f → s.outer? f = some o → D.frames o
  bound : s.AllBound fun f name v => D.frames f → D.part (.symbol name) → D.Data v

variable {D : Dialect} {s t s₀ t₀ : Store} {W : FrameId → String → Prop}

theorem Code.items {items : List Value} (h : D.Code (.list items)) : ∀ expr ∈ items, D.Code expr :=
  fun expr hexpr =>
    ⟨(Value.all_list.mp h.1).2 expr hexpr, Value.everyClosure_list.mp h.2 expr hexpr⟩

/-- The name that a definition or an assignment is about occurs in it. -/
theorem Code.target {form : SpecialForm} {name : String} {expr : Value}
    (h : D.Code (.list [.special form, .symbol name, expr])) : D.part (.symbol name) :=
  (h.items (.symbol name) (by simp)).1.self

namespace Holds

theorem define (h : D.Holds s) {f : FrameId} {name : String} {v : Value} (hv : D.Data v) :
    D.Holds (s.define f name v) where
  fresh hf := h.fresh (Store.next_define s .. ▸ hf)
  outer hf ho := h.outer hf (Store.outer?_define s .. ▸ ho)
  bound := h.bound.define fun _ _ => hv

theorem enter (h : D.Holds s) {params : List String} {args : List Value} {home : FrameId}
    (hhome : D.frames home) (hargs : ∀ a ∈ args, D.Data a) :
    D.Holds (s.pushNested params args home) where
  fresh hf := by
    rw [Store.pushNested, Store.next_push] at hf
    exact h.fresh (Nat.le_of_succ_le hf)
  outer {f o} hf ho := by
    rw [Store.pushNested, Store.outer?_push] at ho
    split at ho
    · cases ho
      exact hhome
    · exact h.outer hf ho
  bound := h.bound.push fun name v hv _ _ => hargs v (Bindings.mem_of_get?_ofPairs hv)

theorem get? (h : D.Holds s) {f : FrameId} {name : String} {v : Value} (hf : D.frames f)
    (hname : D.part (.symbol name)) (hget : s.get? f name = some v) : D.Data v := by
  obtain ⟨g, hg, hv⟩ := h.bound.get? hget
  exact hv (Store.forall_mem_chain h.outer hf g hg) hname

/-- Cells that code of the dialect cannot name may hold anything. -/
theorem of_sameOutside (h : D.Holds s) (hst : s.SameOutside W t)
    (hW : ∀ {f name}, W f name → ¬ D.part (.symbol name)) : D.Holds t where
  fresh hf := h.fresh (hst.next ▸ hf)
  outer hf ho := h.outer hf (hst.outer _ ▸ ho)
  bound f name v hv hf hname := by
    rw [hst.binding fun hcell => hW hcell hname] at hv
    exact h.bound f name v hv hf hname

end Holds

/-! ## Two runs in stores that differ in some cells -/

/-- The stores have come from `s₀` and `t₀`, differ in the cells of `W` at most, and hold there what
they held at the outset. -/
structure Apart (D : Dialect) (W : FrameId → String → Prop) (s₀ t₀ s t : Store) : Prop where
  same : s.SameOutside W t
  left : ∀ {f name}, W f name → s.binding? f name = s₀.binding? f name
  right : ∀ {f name}, W f name → t.binding? f name = t₀.binding? f name
  old : ∀ {f name}, W f name → f < s.next
  holds : D.Holds s

/-- No code of the dialect defines or assigns the name of a cell, and none that names it finds a
difference. -/
structure Blind (D : Dialect) (W : FrameId → String → Prop) (s₀ t₀ : Store) : Prop where
  write : ∀ {f name form expr}, W f name → form ∈ [SpecialForm.define, .assign] →
    ¬ Value.All D.part (.list [.special form, .symbol name, expr])
  read : ∀ {f name}, W f name → D.part (.symbol name) →
    t₀.binding? f name = s₀.binding? f name

namespace Apart

theorem binding_eq (h : D.Apart W s₀ t₀ s t) (hblind : D.Blind W s₀ t₀) {name : String}
    (hname : D.part (.symbol name)) (f : FrameId) : t.binding? f name = s.binding? f name := by
  by_cases hcell : W f name
  · rw [h.right hcell, h.left hcell, hblind.read hcell hname]
  · exact h.same.binding hcell

/-- A name that is in no cell may be bound anew, in both stores. -/
theorem define (h : D.Apart W s₀ t₀ s t) {name : String} (hname : ∀ f, ¬ W f name) {v : Value}
    (hv : D.Data v) (g : FrameId) :
    D.Apart W s₀ t₀ (s.define g name v) (t.define g name v) := by
  have hother {u : Store} {f : FrameId} {other : String} (hcell : W f other) :
      (u.define g name v).binding? f other = u.binding? f other := by
    rw [Store.binding?_define_cases, if_neg]
    intro ⟨_, hsame, _⟩
    exact hname f (hsame ▸ hcell)
  constructor
  case same =>
    constructor
    case next => rw [Store.next_define, Store.next_define, h.same.next]
    case closures => exact h.same.closures
    case outer =>
      intro f
      rw [Store.outer?_define, Store.outer?_define, h.same.outer]
    case binding =>
      intro f other hcell
      rw [Store.binding?_define_cases, Store.binding?_define_cases, h.same.next,
        h.same.binding hcell]
  case left => exact fun hcell => (hother hcell).trans (h.left hcell)
  case right => exact fun hcell => (hother hcell).trans (h.right hcell)
  case old => exact fun hcell => Store.next_define s .. ▸ h.old hcell
  case holds => exact h.holds.define hv

theorem enter (h : D.Apart W s₀ t₀ s t) (params : List String) {args : List Value}
    {home : FrameId} (hhome : D.frames home) (hargs : ∀ a ∈ args, D.Data a) :
    D.Apart W s₀ t₀ (s.pushNested params args home) (t.pushNested params args home) := by
  -- the frame of the call is none of the cells: it has just been made
  have hother {u : Store} {f : FrameId} {name : String} (hu : u.next = s.next)
      (hcell : W f name) : (u.pushNested params args home).binding? f name = u.binding? f name := by
    have hne : f ≠ u.next := hu ▸ Nat.ne_of_lt (h.old hcell)
    rw [Store.pushNested, Store.binding?_push, if_neg hne]
  constructor
  case same =>
    unfold Store.pushNested
    constructor
    case next => rw [Store.next_push, Store.next_push, h.same.next]
    case closures => exact h.same.closures
    case outer =>
      intro f
      rw [Store.outer?_push, Store.outer?_push, h.same.next, h.same.outer]
    case binding =>
      intro f name hcell
      rw [Store.binding?_push, Store.binding?_push, h.same.next, h.same.binding hcell]
  case left => exact fun hcell => (hother rfl hcell).trans (h.left hcell)
  case right => exact fun hcell => (hother h.same.next hcell).trans (h.right hcell)
  case old =>
    intro f name hcell
    rw [Store.pushNested, Store.next_push]
    exact Nat.lt_succ_of_lt (h.old hcell)
  case holds => exact h.holds.enter hhome hargs

theorem count (h : D.Apart W s₀ t₀ s t) :
    D.Apart W s₀ t₀ { s with closures := s.closures + 1 } { t with closures := t.closures + 1 } where
  same := ⟨h.same.next, congrArg (· + 1) h.same.closures, h.same.outer, h.same.binding⟩
  left := h.left
  right := h.right
  old := h.old
  holds := ⟨h.holds.fresh, h.holds.outer, h.holds.bound⟩

end Apart

/-- Runs that keep to the dialect, in stores that differ in cells which it is blind to. -/
def simulation (D : Dialect) (hblind : D.Blind W s₀ t₀) : Simulation .id where
  World := Unit
  Later _ _ := True
  Related _ s t := D.Apart W s₀ t₀ s t
  Frame _ := D.frames
  Code _ := D.Code
  Data _ := D.Data
  later_refl _ := .intro
  later_trans _ _ := .intro
  frame_later _ h := h
  code_later _ h := h
  data_later _ h := h
  code_items := Code.items
  data_of_code h := h.2
  data_integer := Value.everyClosure_integer _
  data_float := Value.everyClosure_float _
  data_list := Value.everyClosure_list
  code_body h :=
    have ⟨⟨_, hbody⟩, hdata⟩ := Value.everyClosure_closure.mp h
    ⟨hbody, hdata⟩
  equal_rename _ _ := by rw [Value.rename_id, Value.rename_id]
  lookup := by
    intro _ s t f name hst hf hcode
    have hname : D.part (.symbol name) := hcode.1.self
    refine ⟨?_, fun v hget => hst.holds.get? hf hname hget⟩
    rw [funext Value.rename_id, Option.map_id']
    exact Store.get?_congr hst.same.outer (hst.binding_eq hblind hname) f
  define := by
    intro _ s t f name expr v hst hf hcode hv
    have hcells (g : FrameId) (hcell : W g name) : False := hblind.write hcell (by simp) hcode.1
    rw [Value.rename_id]
    exact ⟨(), .intro, hst.define hcells hv f⟩
  assign := by
    intro _ s t f name expr v hst hf hcode hv
    have hcells (g : FrameId) (hcell : W g name) : False := hblind.write hcell (by simp) hcode.1
    have hfind : t.find? f name = s.find? f name :=
      Store.find?_congr hst.same.outer (hst.binding_eq hblind hcode.target) f
    rw [Value.rename_id, show Renaming.id.frame f = f from rfl, Store.set?, Store.set?, hfind]
    cases s.find? f name with
    | none => exact .inl ⟨rfl, rfl⟩
    | some g => exact .inr ⟨(), _, _, .intro, hst.define hcells hv g, rfl, rfl⟩
  enter := by
    intro _ s t id params body home args hst hclosure hargs hlength
    have hhome : D.frames home := (Value.everyClosure_closure.mp hclosure).1.1
    rw [map_rename_id]
    exact ⟨(), .intro, hst.holds.fresh (Nat.le_refl _), hst.same.next,
      hst.enter params hhome hargs⟩
  close := by
    intro _ s t f params body names hst hf hcode hnames
    have hbody : D.Code body := hcode.items body (by simp)
    exact ⟨(), .intro, Value.everyClosure_closure.mpr ⟨⟨hf, hbody.1⟩, hbody.2⟩, hst.same.closures,
      hst.count⟩

/-- **Differences that code of the dialect is blind to stay as they are**, and the evaluation of
such code ends alike with and without them. -/
theorem ends_eval (D : Dialect) (hblind : D.Blind W s t) {expr : Value} {f : FrameId}
    (hcode : D.Code expr) (hf : D.frames f) (hst : D.Apart W s t s t) {s' : Store}
    {answer : Except EvalError (Option Value)}
    (hends : Ends (fun depth => eval depth expr f) s answer s') :
    ∃ t', Ends (fun depth => eval depth expr f) t answer t' ∧ D.Apart W s t s' t' := by
  have hrun (depth : Nat) :=
    (D.simulation hblind).evaluators_eval (w := ()) (Nat.le_refl depth) hcode hf
  rw [Value.rename_id] at hrun
  obtain ⟨_, t', hends', _, hst', _⟩ := Simulation.ends hrun hst hends
  rw [Renaming.answer_id] at hends'
  exact ⟨t', hends', hst'⟩

end Dialect

/-! ## The dialect of the code in reach -/

namespace Store

/-- The frames in reach and those yet to be made, with what is said to occur in the code. -/
def dialect (s : Store) (f : FrameId) (expr : Value) (part : Value → Prop) : Dialect where
  frames g := s.Reaches [f] [expr] g ∨ s.next ≤ g
  part := part

variable {s : Store} {f : FrameId} {expr : Value} {part : Value → Prop}

theorem code_dialect (h : ∀ code, s.CodeInReach f expr code → code.All part) :
    (s.dialect f expr part).Code expr := by
  refine ⟨h expr .expression, fun id params body home hx => ⟨.inl ?_, h body (.carried hx)⟩⟩
  exact .value (List.mem_singleton_self expr) ⟨id, params, body, hx⟩

theorem frames_dialect : (s.dialect f expr part).frames f :=
  .inl (.frame (List.mem_singleton_self f))

theorem holds_dialect (h : ∀ code, s.CodeInReach f expr code → code.All part) :
    (s.dialect f expr part).Holds s where
  fresh hf := .inr hf
  outer hg ho := .inl ((reaches_of_outer? hg ho).outer ho)
  bound g name v hv hg _ := by
    intro id params body home hx
    have hg : s.Reaches [f] [expr] g := reaches_of_binding? hg hv
    exact ⟨.inl (hg.bound hv ⟨id, params, body, hx⟩), h body (.bound hg hv hx)⟩

end Store

end ScopedLisp
