import ScopedLisp.Proofs.Evaluation

/-!
# Invariants of a run

A property of the store that evaluation keeps is a comparison of a run with itself, so it is
enough to look at the actions on the store. `Invariant` is what has to be shown of them, and
`Invariant.simulation` is the comparison.
-/

namespace ScopedLisp

open Eval

/-- A property of stores that the actions of evaluation keep, as long as only certain frames,
expressions and values are used. -/
structure Invariant where
  World : Type
  Later : World → World → Prop
  Holds : World → Store → Prop
  /-- Frames in which may be evaluated. -/
  Frame : World → FrameId → Prop
  /-- Expressions that may be evaluated. -/
  Code : World → Value → Prop
  /-- Values that may be held. -/
  Data : World → Value → Prop
  later_refl : ∀ w, Later w w
  later_trans : ∀ {u v w}, Later u v → Later v w → Later u w
  frame_later : ∀ {w w' f}, Later w w' → Frame w f → Frame w' f
  code_later : ∀ {w w' expr}, Later w w' → Code w expr → Code w' expr
  data_later : ∀ {w w' v}, Later w w' → Data w v → Data w' v
  code_items : ∀ {w items}, Code w (.list items) → ∀ expr ∈ items, Code w expr
  data_of_code : ∀ {w expr}, Code w expr → Data w expr
  data_integer : ∀ {w n}, Data w (.integer n)
  data_float : ∀ {w x}, Data w (.float x)
  data_list : ∀ {w items}, Data w (.list items) ↔ ∀ v ∈ items, Data w v
  code_body : ∀ {w id params body home}, Data w (.closure id params body home) → Code w body
  lookup : ∀ {w s f name v}, Holds w s → Frame w f → Code w (.symbol name) →
    s.get? f name = some v → Data w v
  define : ∀ {w s f name expr v}, Holds w s → Frame w f →
    Code w (.list [.special .define, .symbol name, expr]) → Data w v →
    ∃ w', Later w w' ∧ Holds w' (s.define f name v)
  assign : ∀ {w s f g name expr v}, Holds w s → Frame w f →
    Code w (.list [.special .assign, .symbol name, expr]) → Data w v → s.find? f name = some g →
    ∃ w', Later w w' ∧ Holds w' (s.define g name v)
  enter : ∀ {w s id params body home args}, Holds w s → Data w (.closure id params body home) →
    (∀ a ∈ args, Data w a) → args.length = params.length →
    ∃ w', Later w w' ∧ Frame w' s.next ∧ Holds w' (s.pushNested params args home)
  close : ∀ {w s f params body names}, Holds w s → Frame w f →
    Code w (.list [.special .lambda, params, body]) → parameterNames params = .ok names →
    ∃ w', Later w w' ∧ Data w' (.closure s.closures names body f) ∧
      Holds w' { s with closures := s.closures + 1 }

theorem map_rename_id (vs : List Value) : vs.map (Value.rename .id) = vs := by
  rw [funext Value.rename_id, List.map_id']

namespace Invariant

/-- A store that has the property, compared with itself. -/
def simulation (I : Invariant) : Simulation .id where
  World := I.World
  Later := I.Later
  Related w s t := s = t ∧ I.Holds w s
  Frame := I.Frame
  Code := I.Code
  Data := I.Data
  later_refl := I.later_refl
  later_trans := I.later_trans
  frame_later := I.frame_later
  code_later := I.code_later
  data_later := I.data_later
  code_items := I.code_items
  data_of_code := I.data_of_code
  data_integer := I.data_integer
  data_float := I.data_float
  data_list := I.data_list
  code_body := I.code_body
  equal_rename _ _ := by rw [Value.rename_id, Value.rename_id]
  lookup := by
    rintro w s _ f name ⟨rfl, hs⟩ hf hcode
    refine ⟨?_, fun v hv => I.lookup hs hf hcode hv⟩
    rw [funext Value.rename_id, Option.map_id']
    rfl
  define := by
    rintro w s _ f name expr v ⟨rfl, hs⟩ hf hcode hv
    obtain ⟨w', hw, hs'⟩ := I.define hs hf hcode hv
    exact ⟨w', hw, by rw [Value.rename_id]; rfl, hs'⟩
  assign := by
    rintro w s _ f name expr v ⟨rfl, hs⟩ hf hcode hv
    rw [Value.rename_id]
    simp only [Store.set?]
    cases hfind : s.find? f name with
    | none => exact .inl ⟨rfl, by rw [show Renaming.id.frame f = f from rfl, hfind]; rfl⟩
    | some g =>
      obtain ⟨w', hw, hs'⟩ := I.assign hs hf hcode hv hfind
      exact .inr ⟨w', _, _, hw, ⟨rfl, hs'⟩, rfl,
        by rw [show Renaming.id.frame f = f from rfl, hfind]; rfl⟩
  enter := by
    rintro w s _ id params body home args ⟨rfl, hs⟩ hclosure hargs hlength
    obtain ⟨w', hw, hf, hs'⟩ := I.enter hs hclosure hargs hlength
    exact ⟨w', hw, hf, rfl, by rw [map_rename_id]; rfl, hs'⟩
  close := by
    rintro w s _ f params body names ⟨rfl, hs⟩ hf hcode hnames
    obtain ⟨w', hw, hclosure, hs'⟩ := I.close hs hf hcode hnames
    exact ⟨w', hw, hclosure, rfl, rfl, hs'⟩

/-- The property that every store has. -/
def trivial : Invariant where
  World := Unit
  Later _ _ := True
  Holds _ _ := True
  Frame _ _ := True
  Code _ _ := True
  Data _ _ := True
  later_refl _ := .intro
  later_trans _ _ := .intro
  frame_later _ _ := .intro
  code_later _ _ := .intro
  data_later _ _ := .intro
  code_items _ _ _ := .intro
  data_of_code _ := .intro
  data_integer := .intro
  data_float := .intro
  data_list := ⟨fun _ _ _ => .intro, fun _ => .intro⟩
  code_body _ := .intro
  lookup _ _ _ _ := .intro
  define _ _ _ _ := ⟨(), .intro, .intro⟩
  assign _ _ _ _ _ := ⟨(), .intro, .intro⟩
  enter _ _ _ _ := ⟨(), .intro, .intro, .intro⟩
  close _ _ _ _ := ⟨(), .intro, .intro, .intro⟩

variable (I : Invariant) {w : I.World}

theorem simulates_eval {depth depth' : Nat} (h : depth ≤ depth') {expr : Value} {f : FrameId}
    (hcode : I.Code w expr) (hf : I.Frame w f) :
    I.simulation.Simulates w I.simulation.SameResult (eval depth expr f) (eval depth' expr f) := by
  have hsame := I.simulation.evaluators_eval h hcode hf
  rwa [Value.rename_id] at hsame

theorem simulates_call {depth depth' : Nat} (h : depth ≤ depth') {procedure : Value}
    {args : List Value} (hprocedure : I.Data w procedure) (hargs : ∀ a ∈ args, I.Data w a) :
    I.simulation.Simulates w I.simulation.SameResult (call depth procedure args)
      (call depth' procedure args) := by
  have hsame := I.simulation.simulates_call h hprocedure hargs
  rwa [Value.rename_id, map_rename_id] at hsame

end Invariant

end ScopedLisp
