import ScopedLisp.Value.Render

/-!
# Values as trees

The induction over values that proofs use, and what it means for a value to occur in another one.

A value is a tree in two ways: through the items of lists, and through the bodies of closures.
`Occurs` follows both, since a body is an expression like any other and may hold procedures.
-/

namespace ScopedLisp.Value

/-- Induction over values, with the hypothesis for every item of a list and for every body. -/
@[elab_as_elim]
theorem treeInduction {motive : Value → Prop}
    (integer : ∀ n, motive (.integer n)) (float : ∀ x, motive (.float x))
    (symbol : ∀ name, motive (.symbol name)) (special : ∀ form, motive (.special form))
    (list : ∀ items, (∀ v ∈ items, motive v) → motive (.list items))
    (primitive : ∀ p home, motive (.primitive p home))
    (closure : ∀ id params body home, motive body → motive (.closure id params body home))
    (v : Value) : motive v := by
  refine Value.rec (motive_2 := fun items => ∀ v ∈ items, motive v) integer float symbol special
    list primitive closure ?nil ?cons v
  case nil => intro v hv; exact absurd hv (by simp)
  case cons =>
    intro head tail hhead htail v hv
    rcases List.mem_cons.mp hv with rfl | hv
    · exact hhead
    · exact htail v hv

/-- `x` occurs in a value: it is the value, or occurs in an item or in the body of it. -/
inductive Occurs (x : Value) : Value → Prop
  | self : Occurs x x
  | item {items : List Value} {v : Value} (hv : v ∈ items) (h : Occurs x v) :
      Occurs x (.list items)
  | body {id : ClosureId} {params : List String} {body : Value} {home : FrameId}
      (h : Occurs x body) : Occurs x (.closure id params body home)

theorem Occurs.trans {x y v : Value} (hxy : Occurs x y) (hyv : Occurs y v) : Occurs x v := by
  induction hyv with
  | self => exact hxy
  | item hv _ ih => exact .item hv ih
  | body _ ih => exact .body ih

/-! ## The parts of a value -/

/-- `p` holds of the value and of all that occurs in it. -/
def All (p : Value → Prop) (v : Value) : Prop := ∀ x, Occurs x v → p x

theorem All.self {p : Value → Prop} {v : Value} (h : All p v) : p v := h v .self

theorem all_list {p : Value → Prop} {items : List Value} :
    All p (.list items) ↔ p (.list items) ∧ ∀ v ∈ items, All p v := by
  constructor
  · intro h
    exact ⟨h.self, fun v hv x hx => h x (.item hv hx)⟩
  · intro ⟨hself, hitems⟩ x hx
    cases hx with
    | self => exact hself
    | item hv hx => exact hitems _ hv x hx

theorem all_closure {p : Value → Prop} {id : ClosureId} {params : List String} {body : Value}
    {home : FrameId} :
    All p (.closure id params body home) ↔ p (.closure id params body home) ∧ All p body := by
  constructor
  · intro h
    exact ⟨h.self, fun x hx => h x (.body hx)⟩
  · intro ⟨hself, hbody⟩ x hx
    cases hx with
    | self => exact hself
    | body hx => exact hbody x hx

/-- What is neither a list nor a closure has no other part than itself. -/
theorem all_leaf {p : Value → Prop} {v : Value} (hlist : v.isList = false)
    (hclosure : ∀ id params body home, v = .closure id params body home → False) :
    All p v ↔ p v := by
  refine ⟨All.self, fun h x hx => ?_⟩
  cases hx with
  | self => exact h
  | item => cases hlist
  | body => exact (hclosure _ _ _ _ rfl).elim

theorem all_integer {p : Value → Prop} {n : Int64} : All p (.integer n) ↔ p (.integer n) :=
  all_leaf rfl nofun

theorem all_symbol {p : Value → Prop} {name : String} : All p (.symbol name) ↔ p (.symbol name) :=
  all_leaf rfl nofun

theorem all_special {p : Value → Prop} {form : SpecialForm} :
    All p (.special form) ↔ p (.special form) :=
  all_leaf rfl nofun

/-! ## The closures in a value -/

/-- What `p` says of every closure that occurs in the value: its number, parameters, body and
frame. -/
def EveryClosure (p : ClosureId → List String → Value → FrameId → Prop) (v : Value) : Prop :=
  ∀ id params body home, Occurs (.closure id params body home) v → p id params body home

variable {p q : ClosureId → List String → Value → FrameId → Prop}

theorem everyClosure_integer (n : Int64) : EveryClosure p (.integer n) := nofun

theorem everyClosure_float (x : Float) : EveryClosure p (.float x) := nofun

theorem everyClosure_symbol (name : String) : EveryClosure p (.symbol name) := nofun

theorem everyClosure_primitive (op : Primitive) (home : FrameId) :
    EveryClosure p (.primitive op home) := nofun

theorem everyClosure_list {items : List Value} :
    EveryClosure p (.list items) ↔ ∀ v ∈ items, EveryClosure p v := by
  constructor
  · intro h v hv id params body home hx
    exact h id params body home (.item hv hx)
  · intro h id params body home hx
    cases hx with
    | item hv hx => exact h _ hv id params body home hx

theorem everyClosure_closure {id : ClosureId} {params : List String} {body : Value}
    {home : FrameId} :
    EveryClosure p (.closure id params body home) ↔ p id params body home ∧ EveryClosure p body := by
  constructor
  · intro h
    exact ⟨h _ _ _ _ .self, fun id params body home hx => h id params body home (.body hx)⟩
  · rintro ⟨hself, hbody⟩ id params body home hx
    cases hx with
    | self => exact hself
    | body hx => exact hbody id params body home hx

theorem EveryClosure.mono {v : Value} (h : EveryClosure p v)
    (hpq : ∀ {id params body home}, p id params body home → q id params body home) :
    EveryClosure q v :=
  fun id params body home hx => hpq (h id params body home hx)

end ScopedLisp.Value
