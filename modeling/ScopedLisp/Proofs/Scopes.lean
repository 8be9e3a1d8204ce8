import ScopedLisp.Proofs.Handing

/-!
# Lexical scope under updates

Scopes form a tree: many inner frames lie in one outer frame and share what is bound there. An
update of a frame is to be seen from exactly those frames from which the way outward gets to it
before any other binding of the name. `Store.Meets` says what is met on the way outward, frame by
frame; `find?_eq_some_iff` ties the look-up to it, and `lookup_lexical` says what each of the three
updates does to every look-up: a definition, an assignment, and a new frame with parameters.
-/

namespace ScopedLisp

open Eval

namespace Store

/-- The frame around a frame is older than it, so the frames form a tree. -/
def Tree (s : Store) : Prop := ∀ f o, s.outer? f = some o → o < f

theorem WellFormed.tree {s : Store} (h : s.WellFormed) : s.Tree := fun _ _ ho => h.outer_lt ho

/-- From the one frame outward to the other: it is the same, or lies somewhere around it. -/
abbrev Outward (s : Store) : FrameId → FrameId → Prop :=
  Relation.ReflTransGen fun f o => s.outer? f = some o

/-- On the way outward, `f` is met before any other frame that binds the name. -/
inductive Meets (s : Store) (name : String) (f : FrameId) : FrameId → Prop
  | here : Meets s name f f
  | outward {g o : FrameId} (hfree : s.binds g name = false) (ho : s.outer? g = some o)
      (h : Meets s name f o) : Meets s name f g

variable {s t : Store} {f g h : FrameId} {name other : String} {v : Value}

/-! ## Looking up -/

/-- **A look-up finds the frame that is met first among those that bind the name.** -/
theorem find?_eq_some_iff (hs : s.Tree) :
    s.find? g name = some f ↔ s.Meets name f g ∧ s.binds f name = true := by
  constructor
  · intro hfind
    refine ⟨?_, find?_binds hfind⟩
    induction g using Nat.strongRecOn with
    | ind g ih =>
      cases hb : s.binds g name with
      | true =>
        rw [find?_of_binds hb] at hfind
        cases hfind
        exact .here
      | false =>
        cases ho : s.outer? g with
        | none =>
          rw [find?_outermost hb ho] at hfind
          cases hfind
        | some o =>
          have hlt : o < g := hs g o ho
          rw [find?_inside hb ho hlt] at hfind
          exact .outward hb ho (ih o hlt hfind)
  · intro ⟨hmeets, hb⟩
    induction hmeets with
    | here => exact find?_of_binds hb
    | outward hfree ho _ ih => rw [find?_inside hfree ho (hs _ _ ho), ih]

/-- If the name is bound anywhere around, some frame that binds it is met first. -/
theorem exists_meets (hout : s.Outward f h) (hb : s.binds h name = true) :
    ∃ g, s.Meets name g f ∧ s.binds g name = true := by
  induction hout using Relation.ReflTransGen.head_induction_on with
  | refl => exact ⟨h, .here, hb⟩
  | @head f o ho _ ih =>
    cases hf : s.binds f name with
    | true => exact ⟨f, .here, hf⟩
    | false =>
      obtain ⟨g, hmeets, hg⟩ := ih
      exact ⟨g, .outward hf ho hmeets, hg⟩

theorem Meets.outward_to (hmeets : s.Meets name f g) : s.Outward g f := by
  induction hmeets with
  | here => exact .refl
  | outward _ ho _ ih => exact .head ho ih

/-- A look-up that goes through frames of `P` only is the same in a store with the same frames
there. -/
theorem find?_eq_of_forall (hs : s.Tree) (P : FrameId → Prop)
    (hbinds : ∀ g, P g → t.binds g name = s.binds g name)
    (houter : ∀ g, P g → t.outer? g = s.outer? g)
    (hout : ∀ g o, P g → s.binds g name = false → s.outer? g = some o → P o) (hg : P g) :
    t.find? g name = s.find? g name := by
  induction g using Nat.strongRecOn with
  | ind g ih =>
    have hbinds' := hbinds g hg
    have houter' := houter g hg
    cases hb : s.binds g name with
    | true =>
      rw [hb] at hbinds'
      rw [find?_of_binds hb, find?_of_binds hbinds']
    | false =>
      rw [hb] at hbinds'
      cases ho : s.outer? g with
      | none =>
        rw [ho] at houter'
        rw [find?_outermost hb ho, find?_outermost hbinds' houter']
      | some o =>
        rw [ho] at houter'
        have hlt : o < g := hs g o ho
        rw [find?_inside hb ho hlt, find?_inside hbinds' houter' hlt]
        exact ih o hlt (hout g o hg hb ho)

/-! ## A definition -/

/-- In any other frame, a definition binds nothing. -/
theorem binds_define_of_ne (hne : f ≠ g) (v : Value) :
    (s.define f name v).binds g other = s.binds g other := by
  simp [binds_define, hne]

/-- Where the frame of a definition is met first, the definition is found. -/
theorem find?_define_of_meets (hs : s.Tree) (hf : f < s.next) (hmeets : s.Meets name f g) :
    (s.define f name v).find? g name = some f := by
  have hself : (s.define f name v).binds f name = true := by simp [binds_define, hf]
  induction hmeets with
  | here => exact find?_of_binds hself
  | @outward g o hfree ho _ ih =>
    by_cases hfg : f = g
    · subst hfg
      exact find?_of_binds hself
    · have hfree' : (s.define f name v).binds g name = false := by
        rw [binds_define_of_ne hfg, hfree]
      have ho' : (s.define f name v).outer? g = some o := by rw [outer?_define, ho]
      rw [find?_inside hfree' ho' (hs g o ho), ih]

/-- Where it is not, the look-up goes where it went. -/
theorem find?_define_of_not_meets (hs : s.Tree) (hmiss : ¬ s.Meets name f g) (v : Value) :
    (s.define f name v).find? g name = s.find? g name := by
  refine find?_eq_of_forall hs (fun g => ¬ s.Meets name f g) (fun g hg => ?_)
    (fun g _ => outer?_define ..) ?_ hmiss
  · have hne : f ≠ g := by
      intro heq
      exact hg (heq ▸ .here)
    exact binds_define_of_ne hne v
  · intro g o hg hfree ho hmeets
    exact hg (.outward hfree ho hmeets)

/-- What is defined is seen from where its frame is met first. -/
theorem get?_define_of_meets (hs : s.Tree) (hf : f < s.next) (hmeets : s.Meets name f g) :
    (s.define f name v).get? g name = some v := by
  rw [get?, find?_define_of_meets hs hf hmeets, Option.bind_some, binding?_define_self hf]

/-- Every other look-up finds what it found, in the frame in which it found it. -/
theorem lookup_define_otherwise (hs : s.Tree) (hmiss : ¬ (other = name ∧ s.Meets name f g))
    (v : Value) :
    (s.define f name v).find? g other = s.find? g other ∧
      (s.define f name v).get? g other = s.get? g other := by
  by_cases hname : other = name
  · subst hname
    have hfind := find?_define_of_not_meets hs (fun hmeets => hmiss ⟨rfl, hmeets⟩) v
    refine ⟨hfind, ?_⟩
    rw [get?, get?, hfind]
    cases hg : s.find? g other with
    | none => rfl
    | some found =>
      -- the frame that is found is not that of the definition, which would have been met
      have hne : f ≠ found := by
        intro heq
        exact hmiss ⟨rfl, heq ▸ ((find?_eq_some_iff hs).mp hg).1⟩
      rw [Option.bind_some, Option.bind_some, binding?_define_cases,
        if_neg fun hsame => hne hsame.1]
  · have hbinding (g : FrameId) : (s.define f name v).binding? g other = s.binding? g other := by
      rw [binding?_define_cases, if_neg fun hsame => hname hsame.2.1.symm]
    have houter (g : FrameId) : (s.define f name v).outer? g = s.outer? g := outer?_define ..
    exact ⟨find?_congr houter hbinding g, get?_congr houter hbinding g⟩

/-! ## An assignment -/

/-- An assignment is the definition in the frame that is met first, and no look-up is led to another
frame by it. -/
theorem assign_of_meets (hs : s.Tree) (hmeets : s.Meets name h f) (hb : s.binds h name = true)
    (v : Value) :
    Eval.assign f name v s = .ok () (s.define h name v) ∧
      ∀ g other, (s.define h name v).find? g other = s.find? g other := by
  have hset : s.set? f name v = some (s.define h name v) := by
    rw [set?, (find?_eq_some_iff hs).mpr ⟨hmeets, hb⟩, Option.map_some]
  exact ⟨by rw [assign_apply, hset], find?_set? hset⟩

/-- A name that is bound nowhere around cannot be assigned. -/
theorem assign_of_unbound (hs : s.Tree) (hfree : ¬ ∃ h, s.Outward f h ∧ s.binds h name = true)
    (v : Value) : Eval.assign f name v s = .error (.error (.unbound name)) s := by
  have hnone : s.find? f name = none := by
    cases hfind : s.find? f name with
    | none => rfl
    | some h =>
      obtain ⟨hmeets, hb⟩ := (find?_eq_some_iff hs).mp hfind
      exact absurd ⟨h, hmeets.outward_to, hb⟩ hfree
  rw [assign_apply, set?, hnone, Option.map_none]

/-! ## A new frame -/

/-- A new frame changes nothing for the frames that were there. -/
theorem lookup_push_of_lt (hs : s.Tree) (frame : Frame) (hg : g < s.next) (name : String) :
    (s.push frame).find? g name = s.find? g name ∧
      (s.push frame).get? g name = s.get? g name := by
  have hbinding (g : FrameId) (hg : g < s.next) :
      (s.push frame).binding? g name = s.binding? g name := by
    rw [binding?_push, if_neg (Nat.ne_of_lt hg)]
  have hfind : (s.push frame).find? g name = s.find? g name := by
    refine find?_eq_of_forall hs (· < s.next) (fun g hg => ?_) (fun g hg => ?_) ?_ hg
    · rw [binds, binds, hbinding g hg]
    · rw [outer?_push, if_neg (Nat.ne_of_lt hg)]
    · intro g o hg _ ho
      exact Nat.lt_trans (hs g o ho) hg
  refine ⟨hfind, ?_⟩
  rw [get?, get?, hfind]
  cases hfound : s.find? g name with
  | none => rfl
  | some h =>
    rw [Option.bind_some, Option.bind_some, hbinding h (lt_next_of_binds (find?_binds hfound))]

/-- What a new frame does not bind is looked up from the frame that it lies in. -/
theorem lookup_push_outer (hs : s.Tree) {frame : Frame} (hf : f < s.next)
    (houter : frame.outer = some f) (hfree : frame.bindings.get? name = none) :
    (s.push frame).find? s.next name = s.find? f name ∧
      (s.push frame).get? s.next name = s.get? f name := by
  obtain ⟨hfind, hget⟩ := lookup_push_of_lt hs frame hf name
  have hunbound : (s.push frame).binds s.next name = false := by
    rw [binds, binding?_push, if_pos rfl, hfree, Option.isSome_none]
  have ho : (s.push frame).outer? s.next = some f := by rw [outer?_push, if_pos rfl, houter]
  have hinside := find?_inside hunbound ho hf
  exact ⟨hinside.trans hfind, by rw [← hget, get?, get?, hinside]⟩

/-! ## All updates -/

/-- **Look-up after every update is exactly lexical.**

A definition is seen from the frames from which its own is met first, and from no other. An
assignment succeeds just when the name is bound somewhere around; it is then the definition in the
frame that is met first, and otherwise an error that changes nothing. In a new frame a name has the
last argument that it is paired with, and without one it is what it is in the frame around; older
frames see nothing of the new one. -/
theorem lookup_lexical (hs : s.Tree) (hf : f < s.next) (name : String) (v : Value) :
    (∀ g other,
      (other = name ∧ s.Meets name f g →
        (s.define f name v).find? g other = some f ∧
          (s.define f name v).get? g other = some v) ∧
      (¬ (other = name ∧ s.Meets name f g) →
        (s.define f name v).find? g other = s.find? g other ∧
          (s.define f name v).get? g other = s.get? g other)) ∧
    ((∃ h, s.Outward f h ∧ s.binds h name = true) →
      ∃ h, s.Meets name h f ∧ s.binds h name = true ∧
        Eval.assign f name v s = .ok () (s.define h name v) ∧
        ∀ g other, (s.define h name v).find? g other = s.find? g other) ∧
    ((¬ ∃ h, s.Outward f h ∧ s.binds h name = true) →
      Eval.assign f name v s = .error (.error (.unbound name)) s) ∧
    ∀ params args other,
      (∀ before x after, params.zip args = before ++ (other, x) :: after →
        (∀ p ∈ after, p.1 ≠ other) →
        (s.pushNested params args f).find? s.next other = some s.next ∧
          (s.pushNested params args f).get? s.next other = some x) ∧
      ((∀ p ∈ params.zip args, p.1 ≠ other) →
        (s.pushNested params args f).find? s.next other = s.find? f other ∧
          (s.pushNested params args f).get? s.next other = s.get? f other) ∧
      ∀ g < s.next, (s.pushNested params args f).find? g other = s.find? g other ∧
        (s.pushNested params args f).get? g other = s.get? g other := by
  refine ⟨fun g other => ⟨?_, ?_⟩, ?_, fun hfree => assign_of_unbound hs hfree v, ?_⟩
  · rintro ⟨rfl, hmeets⟩
    exact ⟨find?_define_of_meets hs hf hmeets, get?_define_of_meets hs hf hmeets⟩
  · exact fun hmiss => lookup_define_otherwise hs hmiss v
  · rintro ⟨h, hout, hb⟩
    obtain ⟨h, hmeets, hb⟩ := exists_meets hout hb
    exact ⟨h, hmeets, hb, assign_of_meets hs hmeets hb v⟩
  · intro params args other
    refine ⟨?_, ?_, fun g hg => lookup_push_of_lt hs _ hg other⟩
    · intro before x after hzip hlast
      have hget := Bindings.get?_ofPairs_of_zip hzip hlast
      have hbinds : (s.pushNested params args f).binds s.next other = true := by
        rw [binds, pushNested, binding?_push, if_pos rfl, hget, Option.isSome_some]
      exact ⟨find?_of_binds hbinds, get?_push_self hget⟩
    · intro hfree
      exact lookup_push_outer hs hf rfl (Bindings.get?_ofPairs_eq_none hfree)

/-- Frame `1` lies in frame `0`, which binds `x`; frames `2` and `3` lie in frame `1`, and frame `3`
binds `x` itself. A definition of `x` in frame `1` is seen from frame `2`, but neither from frame
`0` nor from frame `3`. From frame `2` an assignment of `x` gets to frame `0`, and `y` cannot be
assigned. Where `x` is twice among the parameters its second argument counts. -/
theorem lookup_lexical_shadowed :
    let s := ((((Store.empty.pushEmpty.define 0 "x" (.integer 1)).pushChild 0).pushChild
      1).pushChild 1).define 3 "x" (.integer 3)
    let t := s.define 1 "x" (.integer 5)
    let u := s.pushNested ["x", "x", "y"] [.integer 8, .integer 9] 1
    (t.get? 2 "x" = some (.integer 5) ∧ t.get? 0 "x" = s.get? 0 "x" ∧
      t.get? 3 "x" = s.get? 3 "x") ∧
    Eval.assign 2 "x" (.integer 7) s = .ok () (s.define 0 "x" (.integer 7)) ∧
    Eval.assign 2 "y" (.integer 7) s = .error (.error (.unbound "y")) s ∧
    u.get? 4 "x" = some (.integer 9) ∧ u.get? 4 "y" = s.get? 1 "y" := by
  intro s t u
  have hglobal : (Store.empty.pushEmpty.define 0 "x" (.integer 1)).WellFormed :=
    wellFormed_empty.pushEmpty.define (Value.everyClosure_integer 1)
  have h₁ : WellFormed (pushChild _ 0) := hglobal.pushChild (by decide)
  have h₂ : WellFormed (pushChild _ 1) := h₁.pushChild (by decide)
  have h₃ : WellFormed (pushChild _ 1) := h₂.pushChild (by decide)
  have hs : s.Tree := (h₃.define (Value.everyClosure_integer 3)).tree
  have hseen : s.Meets "x" 1 2 := .outward rfl rfl .here
  have hroot : ¬ s.Meets "x" 1 0 := by
    intro hmeets
    cases hmeets with
    | outward _ ho => cases ho
  have hshadowed : ¬ s.Meets "x" 1 3 := by
    intro hmeets
    cases hmeets with
    | outward hfree => cases hfree
  have hfree (h : FrameId) : s.binds h "y" = false := by
    match h with
    | 0 | 1 | 2 | 3 => rfl
    | h + 4 => rfl
  have hfirst {h : FrameId} (hmeets : s.Meets "x" h 2) (hb : s.binds h "x" = true) : h = 0 := by
    cases hmeets with
    | here => cases hb
    | outward _ ho hmeets =>
      cases ho
      cases hmeets with
      | here => cases hb
      | outward _ ho hmeets =>
        cases ho
        cases hmeets with
        | here => rfl
        | outward hfree => cases hfree
  obtain ⟨hdefine, -, -, hnested⟩ := lookup_lexical hs (f := 1) (by decide) "x" (.integer 5)
  obtain ⟨-, hassign, -, -⟩ := lookup_lexical hs (f := 2) (by decide) "x" (.integer 7)
  obtain ⟨-, -, hunbound, -⟩ := lookup_lexical hs (f := 2) (by decide) "y" (.integer 7)
  obtain ⟨h, hmeets, hb, hassigned, -⟩ := hassign ⟨0, .head rfl (.head rfl .refl), rfl⟩
  obtain rfl := hfirst hmeets hb
  refine ⟨⟨?_, ?_, ?_⟩, hassigned, hunbound fun ⟨h, _, hb⟩ => ?_, ?_, ?_⟩
  · exact ((hdefine 2 "x").1 ⟨rfl, hseen⟩).2
  · exact ((hdefine 0 "x").2 fun hsame => hroot hsame.2).2
  · exact ((hdefine 3 "x").2 fun hsame => hshadowed hsame.2).2
  · rw [hfree h] at hb
    cases hb
  · exact ((hnested _ _ "x").1 [("x", .integer 8)] (.integer 9) [] rfl nofun).2
  · exact ((hnested _ _ "y").2.1 (by simp)).2

end Store

end ScopedLisp
