import ScopedLisp.Proofs.Depth
import ScopedLisp.Store.Lemmas

/-!
# Well-formed stores

A number is only a number, so nothing in its type says that the frame exists. `WellFormed` says it
of a whole store: outer frames are older than the frames inside them, and every closure that is
held anywhere was made before and lies over a frame that exists. Sessions start so, and evaluation
keeps it (`Ends.wellFormed_eval`, `Ends.wellFormed_call`).
-/

namespace ScopedLisp

open Eval

/-- Every closure in the value was made in the store, over one of its frames. -/
def Store.Holds (s : Store) (v : Value) : Prop :=
  v.EveryClosure fun id _ _ home => id < s.closures ∧ home < s.next

/-- No frame and no closure is mentioned that does not exist. -/
structure Store.WellFormed (s : Store) : Prop where
  outer_lt : ∀ {f o}, s.outer? f = some o → o < f
  holds : ∀ {f name v}, s.binding? f name = some v → s.Holds v

/-- The frames exist, and the closures in the values were made in the store. -/
structure Store.Knows (s : Store) (frames : List FrameId) (values : List Value) : Prop where
  frame_lt : ∀ f ∈ frames, f < s.next
  holds : ∀ v ∈ values, s.Holds v

/-! ## Bindings -/

namespace Bindings

theorem mem_of_get? {b : Bindings} {name : String} {v : Value} (h : b.get? name = some v) :
    (name, v) ∈ b := by
  induction b with
  | nil => cases h
  | cons entry rest ih =>
    obtain ⟨n, x⟩ := entry
    rw [get?] at h
    split at h
    · next hn =>
      cases h
      exact hn ▸ List.mem_cons_self
    · exact List.mem_cons_of_mem _ (ih h)

theorem mem_of_get?_ofPairs {names : List String} {values : List Value} {name : String}
    {v : Value} (h : (ofPairs names values).get? name = some v) : v ∈ values :=
  (List.of_mem_zip (mem_zip_of_get?_ofPairs h)).2

end Bindings

namespace Store

variable {s t : Store}

theorem Holds.mono {v : Value} (h : s.Holds v) (hnext : s.next ≤ t.next)
    (hclosures : s.closures ≤ t.closures) : t.Holds v :=
  Value.EveryClosure.mono h fun ⟨hid, hhome⟩ =>
    ⟨Nat.lt_of_lt_of_le hid hclosures, Nat.lt_of_lt_of_le hhome hnext⟩

/-! ## Frames and bindings outside of the store -/

theorem outer?_of_le {f : FrameId} (h : s.next ≤ f) : s.outer? f = none := by
  rw [outer?, Array.getElem?_eq_none h]
  rfl

theorem binding?_of_le {f : FrameId} (h : s.next ≤ f) (name : String) :
    s.binding? f name = none := by
  rw [binding?, Array.getElem?_eq_none h]
  rfl

/-- Only frames that exist bind anything. -/
theorem lt_next_of_binds {f : FrameId} {name : String} (h : s.binds f name = true) :
    f < s.next := by
  by_contra hle
  rw [binds, binding?_of_le (Nat.le_of_not_lt hle)] at h
  cases h

/-- What is bound after a definition, also in a frame that does not exist. -/
theorem binding?_define_cases (s : Store) (f g : FrameId) (name other : String) (value : Value) :
    (s.define f name value).binding? g other =
      if f = g ∧ name = other ∧ f < s.next then some value else s.binding? g other := by
  rcases Nat.lt_or_ge f s.next with hf | hf
  · rw [binding?_define s f g name other value hf]
    simp [hf]
  · have hnone : (s.define f name value).binding? g other = s.binding? g other := by
      simp only [binding?, define, Array.getElem?_modify]
      split
      · next h => subst h; rw [Array.getElem?_eq_none hf]; rfl
      · rfl
    rw [hnone, if_neg fun h => absurd h.2.2 (Nat.not_lt.mpr hf)]

/-! ## All that is bound -/

/-- `Q` holds of every binding: of its frame, its name and its value. -/
def AllBound (s : Store) (Q : FrameId → String → Value → Prop) : Prop :=
  ∀ f name v, s.binding? f name = some v → Q f name v

section AllBound

variable {Q : FrameId → String → Value → Prop}

theorem AllBound.mono {Q' : FrameId → String → Value → Prop} (h : s.AllBound Q)
    (hQ : ∀ {f name v}, Q f name v → Q' f name v) : s.AllBound Q' :=
  fun f name v hv => hQ (h f name v hv)

theorem AllBound.define (h : s.AllBound Q) {f : FrameId} {name : String} {v : Value}
    (hv : Q f name v) : (s.define f name v).AllBound Q := by
  intro g other x hx
  rw [binding?_define_cases] at hx
  split at hx
  · next hsame =>
    obtain ⟨rfl, rfl, -⟩ := hsame
    cases hx
    exact hv
  · exact h g other x hx

theorem AllBound.push (h : s.AllBound Q) {frame : Frame}
    (hframe : ∀ name v, frame.bindings.get? name = some v → Q s.next name v) :
    (s.push frame).AllBound Q := by
  intro f name v hv
  rw [binding?_push] at hv
  split at hv
  · next hf => exact hf ▸ hframe name v hv
  · exact h f name v hv

theorem allBound_empty : empty.AllBound Q := nofun

theorem AllBound.get? (h : s.AllBound Q) {f : FrameId} {name : String} {v : Value}
    (hget : s.get? f name = some v) : ∃ g ∈ s.chain f, Q g name v := by
  obtain ⟨g, hfind, hg⟩ := Option.bind_eq_some_iff.mp hget
  exact ⟨g, List.mem_of_find?_eq_some hfind, h g name v hg⟩

end AllBound

/-! ## The actions -/

theorem WellFormed.define (h : s.WellFormed) {f : FrameId} {name : String} {v : Value}
    (hv : s.Holds v) : (s.define f name v).WellFormed where
  outer_lt := by
    intro g o ho
    rw [outer?_define] at ho
    exact h.outer_lt ho
  holds := by
    intro g other x hx
    have hbound : s.AllBound fun _ _ x => s.Holds x := fun _ _ _ => h.holds
    exact (hbound.define hv g other x hx).mono (Nat.le_of_eq (next_define ..).symm) (Nat.le_refl _)

theorem WellFormed.push (h : s.WellFormed) {frame : Frame}
    (houter : ∀ o, frame.outer = some o → o < s.next)
    (hbindings : ∀ name v, frame.bindings.get? name = some v → s.Holds v) :
    (s.push frame).WellFormed where
  outer_lt := by
    intro f o ho
    rw [outer?_push] at ho
    split at ho
    · next hf => exact hf ▸ houter o ho
    · exact h.outer_lt ho
  holds := by
    intro f name v hv
    have hbound : s.AllBound fun _ _ x => s.Holds x := fun _ _ _ => h.holds
    exact (hbound.push hbindings f name v hv).mono (by simp) (Nat.le_refl _)

theorem WellFormed.count (h : s.WellFormed) :
    WellFormed { s with closures := s.closures + 1 } where
  outer_lt := h.outer_lt
  holds hv := (h.holds hv).mono (Nat.le_refl _) (Nat.le_succ _)

theorem wellFormed_empty : empty.WellFormed where
  outer_lt := nofun
  holds := nofun

/-- A root frame binds no closure. -/
theorem WellFormed.pushRoot (h : s.WellFormed) : s.pushRoot.WellFormed := by
  refine h.push nofun fun name v hv => ?_
  have hmem : ∃ entry ∈ rootBindings s.next, entry.2 = v := ⟨_, Bindings.mem_of_get? hv, rfl⟩
  obtain ⟨entry, hentry, rfl⟩ := hmem
  rcases List.mem_append.mp hentry with hentry | hentry
  · obtain ⟨p, -, rfl⟩ := List.mem_map.mp hentry
    exact Value.everyClosure_primitive p s.next
  · obtain rfl := List.mem_singleton.mp hentry
    exact Value.everyClosure_float _

theorem WellFormed.pushEmpty (h : s.WellFormed) : s.pushEmpty.WellFormed :=
  h.push nofun nofun

theorem WellFormed.pushChild (h : s.WellFormed) {outer : FrameId} (houter : outer < s.next) :
    (s.pushChild outer).WellFormed := by
  refine h.push (fun o ho => ?_) nofun
  cases ho
  exact houter

end Store

/-! ## Whole runs -/

/-- Stores only grow, so what is in the world of a store stays in those of later ones. -/
def wellFormedness : Invariant where
  World := Store
  Later s t := s.next ≤ t.next ∧ s.closures ≤ t.closures
  Holds w s := w = s ∧ s.WellFormed
  Frame s f := f < s.next
  Code s expr := s.Holds expr
  Data s v := s.Holds v
  later_refl _ := ⟨Nat.le_refl _, Nat.le_refl _⟩
  later_trans h h' := ⟨Nat.le_trans h.1 h'.1, Nat.le_trans h.2 h'.2⟩
  frame_later h hf := Nat.lt_of_lt_of_le hf h.1
  code_later h hcode := hcode.mono h.1 h.2
  data_later h hv := hv.mono h.1 h.2
  code_items h := Value.everyClosure_list.mp h
  data_of_code h := h
  data_integer := Value.everyClosure_integer _
  data_float := Value.everyClosure_float _
  data_list := Value.everyClosure_list
  code_body h := (Value.everyClosure_closure.mp h).2
  lookup := by
    rintro w s f name v ⟨rfl, hs⟩ - - hget
    have hbound : w.AllBound fun _ _ x => w.Holds x := fun _ _ _ => hs.holds
    obtain ⟨_, -, hv⟩ := hbound.get? hget
    exact hv
  define := by
    rintro w s f name expr v ⟨rfl, hs⟩ - - hv
    exact ⟨w.define f name v, ⟨by simp, Nat.le_refl _⟩, rfl, hs.define hv⟩
  assign := by
    rintro w s f g name expr v ⟨rfl, hs⟩ - - hv -
    exact ⟨w.define g name v, ⟨by simp, Nat.le_refl _⟩, rfl, hs.define hv⟩
  enter := by
    rintro w s id params body home args ⟨rfl, hs⟩ hclosure hargs -
    refine ⟨w.pushNested params args home, ⟨?_, Nat.le_refl _⟩, ?_, rfl, hs.push ?_ ?_⟩
    · simp [Store.pushNested]
    · simp [Store.pushNested]
    · intro o ho
      cases ho
      exact (Value.everyClosure_closure.mp hclosure).1.2
    · exact fun name v hv => hargs v (Bindings.mem_of_get?_ofPairs hv)
  close := by
    rintro w s f params body names ⟨rfl, hs⟩ hf hcode -
    refine ⟨{ w with closures := w.closures + 1 }, ⟨Nat.le_refl _, Nat.le_succ _⟩, ?_, rfl,
      hs.count⟩
    have hbody : w.Holds body := Value.everyClosure_list.mp hcode body (by simp)
    exact Value.everyClosure_closure.mpr
      ⟨⟨Nat.lt_succ_self _, hf⟩, hbody.mono (Nat.le_refl _) (Nat.le_succ _)⟩

namespace Eval

variable {s s' : Store} {answer : Except EvalError (Option Value)}

/-- **Evaluation keeps a store well-formed**, and makes no value that the store does not know. -/
theorem Ends.wellFormed_eval {expr : Value} {f : FrameId}
    (h : Ends (fun depth => eval depth expr f) s answer s') (hs : s.WellFormed)
    (hknows : s.Knows [f] [expr]) :
    s'.WellFormed ∧ s.next ≤ s'.next ∧ s.closures ≤ s'.closures ∧
      ∀ v, answer = .ok (some v) → s'.Holds v := by
  have hrun (depth : Nat) := wellFormedness.simulates_eval (Nat.le_refl depth) (w := s)
    (hknows.holds expr (by simp)) (hknows.frame_lt f (by simp))
  obtain ⟨w', hlater, ⟨rfl, hs'⟩, hdata⟩ := wellFormedness.ends hrun ⟨rfl, hs⟩ h
  exact ⟨hs', hlater.1, hlater.2, hdata⟩

theorem Ends.wellFormed_call {procedure : Value} {args : List Value}
    (h : Ends (fun depth => call depth procedure args) s answer s') (hs : s.WellFormed)
    (hknows : s.Knows [] (procedure :: args)) :
    s'.WellFormed ∧ s.next ≤ s'.next ∧ s.closures ≤ s'.closures ∧
      ∀ v, answer = .ok (some v) → s'.Holds v := by
  have hrun (depth : Nat) := wellFormedness.simulates_call (Nat.le_refl depth) (w := s)
    (hknows.holds procedure (by simp)) fun a ha => hknows.holds a (List.mem_cons_of_mem _ ha)
  obtain ⟨w', hlater, ⟨rfl, hs'⟩, hdata⟩ := wellFormedness.ends hrun ⟨rfl, hs⟩ h
  exact ⟨hs', hlater.1, hlater.2, hdata⟩

end Eval

end ScopedLisp
