import Mathlib.Data.List.Find
import ScopedLisp.Proofs.WellFormed

/-!
# A region of the store

Two runs are compared on a region: a set of frames that the runs never leave. Outside of it the
stores may differ in everything; inside, the second store shows the first one under the numbers of
a renaming (`Store.Mirrors`).

A region holds all frames that are still to be made, so a run may make frames and closures without
leaving it. The numbers of the region keep their order: a look-up walks to smaller numbers, and no
two frames may become one.
-/

namespace ScopedLisp

/-- Frames and closures that a run keeps to, those yet to be made among them, on which a renaming
keeps frames in order and closures apart. -/
structure Region (r : Renaming) where
  frames : FrameId → Prop
  closures : ClosureId → Prop
  frame_lt : ∀ {f g}, frames f → frames g → (r.frame f < r.frame g ↔ f < g)
  closure_inj : ∀ {c d}, closures c → closures d → r.closure c = r.closure d → c = d

variable {r : Renaming}

/-- Every closure in the value belongs to the region, with the frame that it is over. -/
def Region.Within (P : Region r) (v : Value) : Prop :=
  v.EveryClosure fun id _ _ home => P.closures id ∧ P.frames home

theorem Region.frame_inj {P : Region r} {f g : FrameId} (hf : P.frames f) (hg : P.frames g) :
    r.frame f = r.frame g ↔ f = g := by
  refine ⟨fun h => ?_, fun h => h ▸ rfl⟩
  rcases Nat.lt_trichotomy f g with hlt | heq | hgt
  · exact absurd ((P.frame_lt hf hg).mpr hlt) (h ▸ Nat.lt_irrefl _)
  · exact heq
  · exact absurd ((P.frame_lt hg hf).mpr hgt) (h ▸ Nat.lt_irrefl _)

/-- No two closures of a region become equal, and no equal ones unequal. -/
theorem Region.equal_rename {P : Region r} {a b : Value} (ha : P.Within a) (hb : P.Within b) :
    (a.rename r).equal (b.rename r) = a.equal b := by
  induction a using Value.treeInduction generalizing b with
  | integer | float | symbol | special | primitive =>
    cases b with
    | list items => rw [Value.rename_list]; rfl
    | closure => rw [Value.rename_closure]; rfl
    | _ => rfl
  | closure id params body home =>
    rw [Value.rename_closure]
    cases b with
    | list items => rw [Value.rename_list]; rfl
    | closure id' params' body' home' =>
      have hid : r.closure id = r.closure id' ↔ id = id' :=
        ⟨P.closure_inj (Value.everyClosure_closure.mp ha).1.1
          (Value.everyClosure_closure.mp hb).1.1, fun h => h ▸ rfl⟩
      rw [Value.rename_closure]
      simp only [Value.equal]
      rw [Bool.eq_iff_iff, beq_iff_eq, beq_iff_eq]
      exact hid
    | _ => rfl
  | list as ih =>
    rw [Value.rename_list]
    cases b with
    | list bs =>
      rw [Value.rename_list]
      simp only [Value.equal]
      induction as generalizing bs with
      | nil => cases bs <;> rfl
      | cons a as ihas =>
        cases bs with
        | nil => rfl
        | cons b bs =>
          obtain ⟨ha, has⟩ := List.forall_mem_cons.mp (Value.everyClosure_list.mp ha)
          obtain ⟨hb, hbs⟩ := List.forall_mem_cons.mp (Value.everyClosure_list.mp hb)
          have hhead : (a.rename r).equal (b.rename r) = a.equal b := ih a (by simp) ha hb
          have htail := ihas (fun x hx => ih x (List.mem_cons_of_mem _ hx))
            (Value.everyClosure_list.mpr has) bs (Value.everyClosure_list.mpr hbs)
          simp only [List.map_cons, Value.equalAll, hhead, htail]
    | closure => rw [Value.rename_closure]; rfl
    | _ => rfl

namespace Store

/-- On the region, `t` shows `s` under the new numbers; outside of it, `s` binds what `s₀` does. -/
structure Mirrors (P : Region r) (s₀ s t : Store) : Prop where
  outer : ∀ {f}, P.frames f → t.outer? (r.frame f) = (s.outer? f).map r.frame
  outer_mem : ∀ {f o}, P.frames f → s.outer? f = some o → P.frames o
  binding : ∀ {f}, P.frames f → ∀ name,
    t.binding? (r.frame f) name = (s.binding? f name).map (Value.rename r)
  within : ∀ {f name v}, P.frames f → s.binding? f name = some v → P.Within v
  frame_fresh : ∀ k, P.frames (s.next + k) ∧ r.frame (s.next + k) = t.next + k
  closure_fresh : ∀ k, P.closures (s.closures + k) ∧ r.closure (s.closures + k) = t.closures + k
  outside : ∀ {f}, ¬ P.frames f → ∀ name, s.binding? f name = s₀.binding? f name

namespace Mirrors

variable {P : Region r} {s₀ s t : Store} {f : FrameId}

theorem next_mem (h : Mirrors P s₀ s t) : P.frames s.next := (h.frame_fresh 0).1

theorem frame_next (h : Mirrors P s₀ s t) : r.frame s.next = t.next := (h.frame_fresh 0).2

theorem frame_lt_next (h : Mirrors P s₀ s t) (hf : P.frames f) :
    r.frame f < t.next ↔ f < s.next := by
  rw [← h.frame_next]
  exact P.frame_lt hf h.next_mem

/-! ## Looking up -/

theorem chain (h : Mirrors P s₀ s t) (hf : P.frames f) :
    t.chain (r.frame f) = (s.chain f).map r.frame := by
  -- whether the numbers fall is decided alike in both stores, for the region keeps their order
  fun_induction Store.chain s f with
  | case1 f o ho hlt ih =>
    have hmem := h.outer_mem hf ho
    have houter : t.outer? (r.frame f) = some (r.frame o) := by rw [h.outer hf, ho]; rfl
    rw [chain_inside houter ((P.frame_lt hmem hf).mpr hlt), ih hmem, List.map_cons]
  | case2 f o ho hlt =>
    have hmem := h.outer_mem hf ho
    have houter : t.outer? (r.frame f) = some (r.frame o) := by rw [h.outer hf, ho]; rfl
    have hlt' : ¬ r.frame o < r.frame f := fun hlt' => hlt ((P.frame_lt hmem hf).mp hlt')
    rw [Store.chain, houter]
    simp only [hlt', if_false]
    rfl
  | case3 f ho =>
    have houter : t.outer? (r.frame f) = none := by rw [h.outer hf, ho]; rfl
    exact chain_outermost houter

theorem find? (h : Mirrors P s₀ s t) (hf : P.frames f) (name : String) :
    t.find? (r.frame f) name = (s.find? f name).map r.frame ∧
      ∀ g, s.find? f name = some g → P.frames g := by
  have hall : ∀ g ∈ s.chain f, P.frames g := forall_mem_chain h.outer_mem hf
  constructor
  · have hbinds : ∀ g ∈ s.chain f, t.binds (r.frame g) name = s.binds g name := by
      intro g hg
      rw [binds, binds, h.binding (hall g hg), Option.isSome_map]
    rw [Store.find?, Store.find?, h.chain hf, List.find?_map]
    exact congrArg (Option.map r.frame) (List.find?_congr hbinds)
  · exact fun g hg => hall g (List.mem_of_find?_eq_some hg)

theorem get? (h : Mirrors P s₀ s t) (hf : P.frames f) (name : String) :
    t.get? (r.frame f) name = (s.get? f name).map (Value.rename r) ∧
      ∀ v, s.get? f name = some v → P.Within v := by
  obtain ⟨hfind, hmem⟩ := h.find? hf name
  rw [Store.get?, Store.get?, hfind]
  cases hs : s.find? f name with
  | none =>
    refine ⟨rfl, fun v hv => ?_⟩
    cases hv
  | some g => exact ⟨h.binding (hmem g hs) name, fun v hv => h.within (hmem g hs) hv⟩

/-! ## The actions -/

theorem define (h : Mirrors P s₀ s t) (hf : P.frames f) (name : String) {v : Value}
    (hv : P.Within v) :
    Mirrors P s₀ (s.define f name v) (t.define (r.frame f) name (v.rename r)) where
  outer hg := by rw [outer?_define, outer?_define, h.outer hg]
  outer_mem hg ho := by
    rw [outer?_define] at ho
    exact h.outer_mem hg ho
  binding {g} hg other := by
    rw [binding?_define_cases, binding?_define_cases]
    simp only [P.frame_inj hf hg, h.frame_lt_next hf]
    split
    · rfl
    · exact h.binding hg other
  within {g other x} hg hx := by
    rw [binding?_define_cases] at hx
    split at hx
    · cases hx
      exact hv
    · exact h.within hg hx
  frame_fresh := by
    rw [next_define, next_define]
    exact h.frame_fresh
  closure_fresh := h.closure_fresh
  outside {g} hg other := by
    rw [binding?_define_cases, if_neg (by rintro ⟨rfl, -⟩; exact hg hf)]
    exact h.outside hg other

theorem push (h : Mirrors P s₀ s t) {frame frame' : Frame}
    (houter : frame'.outer = frame.outer.map r.frame)
    (houter_mem : ∀ o, frame.outer = some o → P.frames o)
    (hbindings : ∀ name, frame'.bindings.get? name = (frame.bindings.get? name).map (Value.rename r))
    (hwithin : ∀ name v, frame.bindings.get? name = some v → P.Within v) :
    Mirrors P s₀ (s.push frame) (t.push frame') := by
  -- the new frame is the only one of the region that gets the new number
  have hnew {g : FrameId} (hg : P.frames g) : r.frame g = t.next ↔ g = s.next := by
    rw [← h.frame_next]
    exact P.frame_inj hg h.next_mem
  constructor
  case outer =>
    intro g hg
    simp only [outer?_push, hnew hg]
    split
    · exact houter
    · exact h.outer hg
  case outer_mem =>
    intro g o hg ho
    rw [outer?_push] at ho
    split at ho
    · exact houter_mem o ho
    · exact h.outer_mem hg ho
  case binding =>
    intro g hg name
    simp only [binding?_push, hnew hg]
    split
    · exact hbindings name
    · exact h.binding hg name
  case within =>
    intro g name v hg hv
    rw [binding?_push] at hv
    split at hv
    · exact hwithin name v hv
    · exact h.within hg hv
  case frame_fresh =>
    intro k
    have hk := h.frame_fresh (k + 1)
    rw [next_push, next_push]
    rw [Nat.add_right_comm, Nat.add_right_comm t.next]
    exact hk
  case closure_fresh => exact h.closure_fresh
  case outside =>
    intro g hg name
    rw [binding?_push, if_neg (by rintro rfl; exact hg h.next_mem)]
    exact h.outside hg name

theorem count (h : Mirrors P s₀ s t) :
    Mirrors P s₀ { s with closures := s.closures + 1 } { t with closures := t.closures + 1 } where
  outer := h.outer
  outer_mem := h.outer_mem
  binding := h.binding
  within := h.within
  frame_fresh := h.frame_fresh
  closure_fresh k := by
    have hk := h.closure_fresh (k + 1)
    show P.closures (s.closures + 1 + k) ∧ _ = t.closures + 1 + k
    rwa [Nat.add_assoc, Nat.add_comm 1, Nat.add_assoc, Nat.add_comm 1]
  outside := h.outside

end Mirrors

end Store

/-! ## Bindings of a new frame -/

namespace Bindings

theorem insert_map (g : Value → Value) (name : String) (v : Value) (b : Bindings) :
    insert name (g v) (b.map (Prod.map id g)) = (insert name v b).map (Prod.map id g) := by
  induction b with
  | nil => rfl
  | cons entry rest ih =>
    obtain ⟨n, x⟩ := entry
    simp only [List.map_cons, Prod.map_apply, id, insert]
    split
    · rfl
    · rw [ih]; rfl

theorem get?_map (g : Value → Value) (name : String) (b : Bindings) :
    get? name (b.map (Prod.map id g)) = (get? name b).map g := by
  induction b with
  | nil => rfl
  | cons entry rest ih =>
    obtain ⟨n, x⟩ := entry
    simp only [List.map_cons, Prod.map_apply, id, get?]
    split
    · rfl
    · exact ih

/-- Changed arguments change what the parameters are bound to, and nothing else. -/
theorem get?_ofPairs_map (g : Value → Value) (names : List String) (values : List Value)
    (name : String) :
    (ofPairs names (values.map g)).get? name = ((ofPairs names values).get? name).map g := by
  have hfold (pairs : List (String × Value)) (b : Bindings) :
      (pairs.map (Prod.map id g)).foldl (fun b p => insert p.1 p.2 b) (b.map (Prod.map id g)) =
        (pairs.foldl (fun b p => insert p.1 p.2 b) b).map (Prod.map id g) := by
    induction pairs generalizing b with
    | nil => rfl
    | cons p pairs ih =>
      rw [List.map_cons, List.foldl_cons, List.foldl_cons, ← ih, ← insert_map]
      rfl
  rw [← get?_map, ofPairs, ofPairs, List.zip_map_right, ← hfold]
  rfl

end Bindings

/-! ## Runs that keep to a region -/

/-- The comparison of two stores on a region. -/
def Region.simulation (P : Region r) (s₀ : Store) : Simulation r where
  World := Unit
  Later _ _ := True
  Related _ s t := Store.Mirrors P s₀ s t
  Frame _ := P.frames
  Code _ := P.Within
  Data _ := P.Within
  later_refl _ := trivial
  later_trans _ _ := trivial
  frame_later _ h := h
  code_later _ h := h
  data_later _ h := h
  code_items h := Value.everyClosure_list.mp h
  data_of_code h := h
  data_integer := Value.everyClosure_integer _
  data_float := Value.everyClosure_float _
  data_list := Value.everyClosure_list
  code_body h := (Value.everyClosure_closure.mp h).2
  equal_rename := Region.equal_rename
  lookup hst hf _ := hst.get? hf _
  define hst hf _ hv := ⟨(), trivial, hst.define hf _ hv⟩
  assign {_ s t f name expr v} hst hf _ hv := by
    obtain ⟨hfind, hmem⟩ := hst.find? hf name
    simp only [Store.set?, hfind]
    cases hs : s.find? f name with
    | none => exact .inl ⟨rfl, rfl⟩
    | some g => exact .inr ⟨(), _, _, trivial, hst.define (hmem g hs) name hv, rfl, rfl⟩
  enter {_ s t id params body home args} hst hclosure hargs _ := by
    refine ⟨(), trivial, hst.next_mem, hst.frame_next.symm, hst.push rfl ?_ ?_ ?_⟩
    · intro o ho
      cases ho
      exact (Value.everyClosure_closure.mp hclosure).1.2
    · exact fun name => Bindings.get?_ofPairs_map _ params args name
    · exact fun name v hv => hargs v (Bindings.mem_of_get?_ofPairs hv)
  close {_ s t f params body names} hst hf hcode _ := by
    obtain ⟨hfresh, hcount⟩ := hst.closure_fresh 0
    have hbody : P.Within body := Value.everyClosure_list.mp hcode body (by simp)
    exact ⟨(), trivial, Value.everyClosure_closure.mpr ⟨⟨hfresh, hf⟩, hbody⟩, hcount.symm,
      hst.count⟩

end ScopedLisp
