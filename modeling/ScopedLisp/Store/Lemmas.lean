import ScopedLisp.Store.Basic

/-!
# What each store operation does

One equation per operation and view: the views are the number of frames, the outer links and the
bindings of each frame.
-/

namespace ScopedLisp.Store

/-! ## New frames -/

@[simp] theorem next_push (s : Store) (frame : Frame) : (s.push frame).next = s.next + 1 := by
  simp [push, next]

theorem outer?_push (s : Store) (frame : Frame) (f : FrameId) :
    (s.push frame).outer? f = if f = s.next then frame.outer else s.outer? f := by
  unfold next
  simp only [outer?, push, Array.getElem?_push]
  split <;> rfl

theorem binding?_push (s : Store) (frame : Frame) (f : FrameId) (name : String) :
    (s.push frame).binding? f name =
      if f = s.next then frame.bindings.get? name else s.binding? f name := by
  unfold next
  simp only [binding?, push, Array.getElem?_push]
  split <;> rfl

/-! ## New bindings -/

@[simp] theorem next_define (s : Store) (f : FrameId) (name : String) (value : Value) :
    (s.define f name value).next = s.next := by
  simp [define, next]

@[simp] theorem outer?_define (s : Store) (f g : FrameId) (name : String) (value : Value) :
    (s.define f name value).outer? g = s.outer? g := by
  simp only [outer?, define, Array.getElem?_modify]
  split
  · next h => subst h; cases s.frames[f]? <;> rfl
  · rfl

theorem binding?_define (s : Store) (f g : FrameId) (name other : String) (value : Value)
    (hf : f < s.next) :
    (s.define f name value).binding? g other =
      if f = g ∧ name = other then some value else s.binding? g other := by
  simp only [binding?, define, Array.getElem?_modify]
  by_cases hg : f = g
  · subst hg
    have hlt : f < s.frames.size := hf
    simp [Array.getElem?_eq_getElem hlt, Bindings.get?_insert]
  · simp [hg]

/-! ## Looking up -/

theorem chain_outermost {s : Store} {f : FrameId} (h : s.outer? f = none) : s.chain f = [f] := by
  rw [chain, h]

theorem chain_inside {s : Store} {f o : FrameId} (h : s.outer? f = some o) (hlt : o < f) :
    s.chain f = f :: s.chain o := by
  rw [chain, h]
  exact if_pos hlt

/-- A chain depends on the scopes only. -/
theorem chain_congr {s t : Store} (houter : ∀ g, t.outer? g = s.outer? g) (f : FrameId) :
    t.chain f = s.chain f := by
  fun_induction chain s f with
  | case1 f o h hlt ih => rw [chain]; simp [houter, h, hlt, ih]
  | case2 f o h hlt => rw [chain]; simp [houter, h, hlt]
  | case3 f h => rw [chain]; simp [houter, h]

/-- A definition changes no chain. -/
@[simp] theorem chain_define (s : Store) (f g : FrameId) (name : String) (value : Value) :
    (s.define f name value).chain g = s.chain g :=
  chain_congr (fun _ => outer?_define ..) g

/-- What is kept on the way outward holds of all frames from there on. -/
theorem forall_mem_chain {s : Store} {R : FrameId → Prop}
    (houter : ∀ {f o}, R f → s.outer? f = some o → R o) {f : FrameId} (hf : R f) :
    ∀ g ∈ s.chain f, R g := by
  fun_induction chain s f with
  | case1 f o ho hlt ih => exact List.forall_mem_cons.mpr ⟨hf, ih (houter hf ho)⟩
  | case2 f o ho hlt => exact List.forall_mem_singleton.mpr hf
  | case3 f ho => exact List.forall_mem_singleton.mpr hf

/-- What a frame binds itself is found in it. -/
theorem find?_of_binds {s : Store} {f : FrameId} {name : String} (h : s.binds f name = true) :
    s.find? f name = some f := by
  have hfirst (outer : List FrameId) : (f :: outer).find? (fun g => s.binds g name) = some f :=
    List.find?_cons_of_pos (p := fun g => s.binds g name) h
  unfold find?
  rw [chain]
  split
  · split <;> exact hfirst _
  · exact hfirst []

/-- What a frame does not bind is looked up in the frame around it. -/
theorem find?_inside {s : Store} {f o : FrameId} {name : String} (hfree : s.binds f name = false)
    (ho : s.outer? f = some o) (hlt : o < f) : s.find? f name = s.find? o name := by
  rw [find?, find?, chain_inside ho hlt]
  exact List.find?_cons_of_neg (by simp [hfree])

theorem find?_outermost {s : Store} {f : FrameId} {name : String} (hfree : s.binds f name = false)
    (ho : s.outer? f = none) : s.find? f name = none := by
  rw [find?, chain_outermost ho]
  simp [hfree]

/-- A look-up depends on the scopes and on the bindings of its own name. -/
theorem find?_congr {s t : Store} {name : String} (houter : ∀ g, t.outer? g = s.outer? g)
    (hbinding : ∀ g, t.binding? g name = s.binding? g name) (f : FrameId) :
    t.find? f name = s.find? f name := by
  have hbinds : (fun g => t.binds g name) = fun g => s.binds g name := by
    funext g
    rw [binds, binds, hbinding]
  rw [find?, find?, chain_congr houter, hbinds]

theorem get?_congr {s t : Store} {name : String} (houter : ∀ g, t.outer? g = s.outer? g)
    (hbinding : ∀ g, t.binding? g name = s.binding? g name) (f : FrameId) :
    t.get? f name = s.get? f name := by
  rw [get?, get?, find?_congr houter hbinding, funext hbinding]

end ScopedLisp.Store
