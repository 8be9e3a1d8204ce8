import ScopedLisp.Proofs.Dialect
import ScopedLisp.Proofs.Activation

/-!
# What code does not mention

Evaluation gets at names through the code in reach only. A name that this code does not mention is
never looked up, so a binding of it changes nothing, whatever it is bound to and wherever
(`unmentioned_binding_unseen`). And a name that this code neither defines nor assigns keeps its
bindings, also where closures bind it as a parameter: those bindings are in frames of their own
(`unwritten_name_kept`).

Both are comparisons over a dialect: without the name, or without the forms that write it.
-/

namespace ScopedLisp

open Eval

/-- A list that starts with `define` or `set!`. -/
def Value.IsWrite (v : Value) : Prop :=
  ∃ form ∈ [SpecialForm.define, .assign], ∃ rest, v = .list (.special form :: rest)

/-- One whose target is the name. -/
def Value.IsWriteOf (name : String) (v : Value) : Prop :=
  ∃ form ∈ [SpecialForm.define, .assign], ∃ rest, v = .list (.special form :: .symbol name :: rest)

/-- The cell of one name in one frame. -/
def Store.cell (g : FrameId) (x : String) (f : FrameId) (name : String) : Prop := f = g ∧ name = x

variable {s t s' : Store} {f g : FrameId} {expr : Value} {x : String}
  {answer : Except EvalError (Option Value)}

/-! ## Names that are not mentioned -/

theorem Store.sameOutside_define (s : Store) (g : FrameId) (x : String) (v : Value) :
    s.SameOutside (cell g x) (s.define g x v) where
  next := next_define ..
  closures := rfl
  outer _ := outer?_define ..
  binding {f name} hcell := by
    rw [binding?_define_cases, if_neg]
    intro ⟨hf, hname, _⟩
    exact hcell ⟨hf.symm, hname.symm⟩

/-- Code without the name is blind to its cell. -/
theorem Dialect.blind_cell {D : Dialect} (hD : ¬ D.part (.symbol x)) :
    D.Blind (Store.cell g x) s t where
  write {f name form expr} hcell _ hall := by
    have hname : D.part (.symbol name) := ((Value.all_list.mp hall).2 (.symbol name) (by simp)).self
    exact hD (hcell.2 ▸ hname)
  read hcell hname := absurd (hcell.2 ▸ hname) hD

/-- Stores that differ in one cell are apart there as long as code without its name is run. -/
theorem Dialect.Holds.apart {D : Dialect} (h : D.Holds s) (hg : g < s.next)
    (hst : s.SameOutside (Store.cell g x) t) : D.Apart (Store.cell g x) s t s t where
  same := hst
  left _ := rfl
  right _ := rfl
  old hcell := hcell.1 ▸ hg
  holds := h

/-- **A binding that is not mentioned cannot matter**: no code in reach of the evaluation has the
name in it. Then evaluation ends alike with the binding and without it, and the two final stores
differ in nothing but that binding. -/
theorem unmentioned_binding_unseen
    (hx : ∀ code, s.CodeInReach f expr code → ¬ Value.Occurs (.symbol x) code)
    (hg : g < s.next) (v : Value) :
    (∀ answer s', Ends (fun depth => eval depth expr f) s answer s' →
      ∃ t', Ends (fun depth => eval depth expr f) (s.define g x v) answer t' ∧
        s'.SameOutside (Store.cell g x) t' ∧ s'.binding? g x = s.binding? g x ∧
        t'.binding? g x = some v) ∧
    ∀ answer t', Ends (fun depth => eval depth expr f) (s.define g x v) answer t' →
      ∃ s', Ends (fun depth => eval depth expr f) s answer s' ∧
        s'.SameOutside (Store.cell g x) t' ∧ s'.binding? g x = s.binding? g x ∧
        t'.binding? g x = some v := by
  -- the dialect is that of the store without the binding, in both directions
  let D := s.dialect f expr fun part => part ≠ .symbol x
  have hparts : ∀ code, s.CodeInReach f expr code → code.All fun part => part ≠ .symbol x := by
    intro code hcode part hpart heq
    exact hx code hcode (heq ▸ hpart)
  have hcode : D.Code expr := Store.code_dialect hparts
  have hf : D.frames f := Store.frames_dialect
  have hD : ¬ D.part (.symbol x) := fun h => h rfl
  have hs : D.Holds s := Store.holds_dialect hparts
  have hst : s.SameOutside (Store.cell g x) (s.define g x v) := s.sameOutside_define g x v
  have ht : D.Holds (s.define g x v) := hs.of_sameOutside hst fun hcell hname =>
    hD (hcell.2 ▸ hname)
  have hself : Store.cell g x g x := ⟨rfl, rfl⟩
  have hv : (s.define g x v).binding? g x = some v := by
    rw [Store.binding?_define_cases, if_pos ⟨rfl, rfl, hg⟩]
  constructor
  · intro answer s' hends
    obtain ⟨t', hends', hapart⟩ := D.ends_eval (Dialect.blind_cell hD) hcode hf (hs.apart hg hst)
      hends
    exact ⟨t', hends', hapart.same, hapart.left hself, (hapart.right hself).trans hv⟩
  · intro answer t' hends
    have hg' : g < (s.define g x v).next := Store.next_define s .. ▸ hg
    obtain ⟨s', hends', hapart⟩ := D.ends_eval (Dialect.blind_cell hD) hcode hf
      (ht.apart hg' hst.symm) hends
    exact ⟨s', hends', hapart.same.symm, hapart.right hself, (hapart.left hself).trans hv⟩

/-- A closure that returns `y` is called in the frame that binds `y`, with and without a binding of
`z` there. -/
theorem unmentioned_binding_unseen_call :
    let c : Value := .closure 0 ["x"] (.symbol "y") 0
    let s := (Store.empty.pushEmpty.makeClosure ["x"] (.symbol "y") 0).2.define 0 "y" (.integer 1)
    ∃ t', Ends (fun depth => eval depth (.list [c, .integer 5]) 0) (s.define 0 "z" c)
      (.ok (some (.integer 1))) t' ∧ t'.binding? 1 "x" = some (.integer 5) ∧
      t'.binding? 0 "z" = some c := by
  intro c s
  let u := s.pushNested ["x"] [.integer 5] 0
  have hx : ∀ code, s.CodeInReach 0 (.list [c, .integer 5]) code →
      ¬ Value.Occurs (.symbol "z") code := by
    intro code hcode hz
    have hexpr : Value.All (fun part => part ≠ .symbol "z") (.list [c, .integer 5]) := by
      simp [c, Value.all_list, Value.all_closure, Value.all_integer, Value.all_symbol]
    have hbound : s.AllBound fun _ _ v => v.EveryClosure fun _ _ body _ =>
        body.All fun part => part ≠ .symbol "z" :=
      Store.AllBound.define (Store.allBound_empty.push nofun) (Value.everyClosure_integer 1)
    exact hcode.all hexpr hbound _ hz rfl
  have hends : Ends (fun depth => eval depth (.list [c, .integer 5]) 0) s (.ok (some (.integer 1)))
      u := by
    have hchain : u.chain 1 = [1, 0] := by
      rw [Store.chain_inside rfl Nat.zero_lt_one, Store.chain_outermost rfl]
    have hget : u.get? 1 "y" = some (.integer 1) := by
      rw [Store.get?, Store.find?, hchain]
      rfl
    have hbody : eval 1 (.symbol "y") 1 u = .ok (some (.integer 1)) u := by
      show (some <$> lookup 1 "y") u = _
      rw [map_eq_pure_bind, bind_apply, lookup_apply, hget]
      rfl
    refine ⟨2, ?_⟩
    show apply (eval 1) c [.integer 5] s = _
    rw [apply]
    exact hbody
  obtain ⟨t', hends', hsame, -, hz⟩ :=
    (unmentioned_binding_unseen hx (g := 0) (by decide) c).1 _ _ hends
  refine ⟨t', hends', ?_, hz⟩
  rw [hsame.binding fun hcell => absurd hcell.1 (by decide)]
  rfl

/-! ## Names that are not written -/

theorem Value.IsWriteOf.isWrite {v : Value} (h : v.IsWriteOf x) : v.IsWrite := by
  obtain ⟨form, hform, rest, hv⟩ := h
  exact ⟨form, hform, _, hv⟩

/-- Code without definitions and assignments of a name is blind to all cells of it. -/
theorem Dialect.blind_name {D : Dialect} {W : FrameId → String → Prop}
    (hW : ∀ {f name}, W f name → name = x) (hD : ∀ v, D.part v → ¬ v.IsWriteOf x) :
    D.Blind W s s where
  write {f name form expr} hcell hform hall := by
    refine hD _ hall.self ⟨form, hform, [expr], ?_⟩
    rw [hW hcell]
  read _ _ := rfl

/-- **Only `define` and `set!` change bindings.** A name for which no code in reach of the
evaluation has such a form is bound as before in every frame that was there, or unbound as before;
and where no code in reach has such a form at all, every frame that was there stays as it was. -/
theorem unwritten_name_kept (hends : Ends (fun depth => eval depth expr f) s answer s') :
    (∀ x, (∀ code, s.CodeInReach f expr code → code.All fun v => ¬ v.IsWriteOf x) →
      ∀ g < s.next, s'.binding? g x = s.binding? g x) ∧
    ((∀ code, s.CodeInReach f expr code → code.All fun v => ¬ v.IsWrite) →
      ∀ g < s.next, s'.outer? g = s.outer? g ∧ ∀ name, s'.binding? g name = s.binding? g name) := by
  have hkept : ∀ x, (∀ code, s.CodeInReach f expr code → code.All fun v => ¬ v.IsWriteOf x) →
      ∀ g < s.next, s'.binding? g x = s.binding? g x := by
    intro x hparts g hg
    let D := s.dialect f expr fun v => ¬ v.IsWriteOf x
    let W (f : FrameId) (name : String) : Prop := f < s.next ∧ name = x
    -- the run beside itself: the cells of the name stay as they were at the outset
    have hself : D.Apart W s s s s :=
      ⟨.refl W s, fun _ => rfl, fun _ => rfl, And.left, Store.holds_dialect hparts⟩
    have hblind : D.Blind W s s := Dialect.blind_name And.right fun _ h => h
    obtain ⟨t', -, hapart⟩ :=
      D.ends_eval hblind (Store.code_dialect hparts) Store.frames_dialect hself hends
    exact hapart.left ⟨hg, rfl⟩
  refine ⟨hkept, fun hparts g hg => ⟨hends.extends_eval.outer g hg, fun name => ?_⟩⟩
  refine hkept name (fun code hcode v hv hwrite => ?_) g hg
  exact hparts code hcode v hv hwrite.isWrite

/-- Closures with a parameter `x` are called in a frame that binds `x`: it keeps that binding, also
when the one of them defines `y`, and every binding when the other one defines nothing. -/
theorem unwritten_name_kept_call :
    let body : Value := .list [.special .define, .symbol "y", .integer 2]
    let s := Store.empty.pushEmpty.define 0 "x" (.integer 1)
    (∃ s', Ends (fun depth => eval depth (.list [.closure 0 ["x"] body 0, .integer 5]) 0) s
      (.ok none) s' ∧ s'.binding? 1 "x" = some (.integer 5) ∧
      s'.binding? 1 "y" = some (.integer 2) ∧ s'.binding? 0 "x" = some (.integer 1)) ∧
    ∃ s', Ends (fun depth => eval depth (.list [.closure 1 ["x"] (.integer 7) 0, .integer 5]) 0) s
      (.ok (some (.integer 7))) s' ∧ s'.binding? 1 "x" = some (.integer 5) ∧
      ∀ name, s'.binding? 0 name = s.binding? 0 name := by
  intro body s
  let u := s.pushNested ["x"] [.integer 5] 0
  have hbound {part : Value → Prop} :
      s.AllBound fun _ _ v => v.EveryClosure fun _ _ body _ => body.All part :=
    Store.AllBound.define (Store.allBound_empty.push nofun) (Value.everyClosure_integer 1)
  constructor
  · have hends : Ends (fun depth => eval depth (.list [.closure 0 ["x"] body 0, .integer 5]) 0) s
        (.ok none) (u.define 1 "y" (.integer 2)) := by
      refine ⟨3, ?_⟩
      show apply (eval 2) (.closure 0 ["x"] body 0) [.integer 5] s = _
      rw [apply]
      rfl
    have hexpr : Value.All (fun v => ¬ v.IsWriteOf "x")
        (.list [.closure 0 ["x"] body 0, .integer 5]) := by
      simp [body, Value.all_list, Value.all_closure, Value.all_integer, Value.all_symbol,
        Value.all_special, Value.IsWriteOf]
    refine ⟨_, hends, rfl, rfl, ?_⟩
    exact (unwritten_name_kept hends).1 "x" (fun _ hcode => hcode.all hexpr hbound) 0 (by decide)
  · have hends : Ends
        (fun depth => eval depth (.list [.closure 1 ["x"] (.integer 7) 0, .integer 5]) 0) s
        (.ok (some (.integer 7))) u := by
      refine ⟨2, ?_⟩
      show apply (eval 1) (.closure 1 ["x"] (.integer 7) 0) [.integer 5] s = _
      rw [apply]
      rfl
    have hexpr : Value.All (fun v => ¬ v.IsWrite)
        (.list [.closure 1 ["x"] (.integer 7) 0, .integer 5]) := by
      simp [Value.all_list, Value.all_closure, Value.all_integer, Value.IsWrite]
    refine ⟨u, hends, rfl, ?_⟩
    exact ((unwritten_name_kept hends).2 (fun _ hcode => hcode.all hexpr hbound) 0 (by decide)).2

end ScopedLisp
