import ScopedLisp.Proofs.Region

/-!
# Evaluation is confined to what it can reach

From a frame one gets to the frame around it and, through the closures that it binds, to the frames
that these are over. A run starts with one frame or none and with some values, and whatever it
makes, passes on or binds, it never gets further than that and to frames of its own: all other
frames keep their bindings (`Confined.untouched`) and have no influence (`Confined.uninfluenced`).

Closures are followed wherever they are held: in lists, and in bodies of closures too, since a host
may put a procedure into an expression.

Both parts come from one comparison on a region, which is what is reached and all that is yet to be
made. In two stores with different numbers of frames or closures the new ones get different numbers,
so the second run is the first one up to `Renaming.between`.
-/

namespace ScopedLisp

open Eval

/-- A closure over frame `home` occurs in the value. -/
def Value.Captures (v : Value) (home : FrameId) : Prop :=
  ∃ id params body, Value.Occurs (.closure id params body home) v

/-- The frames that can be reached from these frames and values. -/
inductive Store.Reaches (s : Store) (frames : List FrameId) (values : List Value) : FrameId → Prop
  | frame {f : FrameId} (h : f ∈ frames) : Reaches s frames values f
  | value {v : Value} {home : FrameId} (hv : v ∈ values) (h : v.Captures home) :
      Reaches s frames values home
  | outer {f o : FrameId} (hf : Reaches s frames values f) (h : s.outer? f = some o) :
      Reaches s frames values o
  | bound {f home : FrameId} {name : String} {v : Value} (hf : Reaches s frames values f)
      (hv : s.binding? f name = some v) (h : v.Captures home) : Reaches s frames values home

/-- The stores have the same frames in `R`, with the same bindings. -/
structure Store.AgreeOn (R : FrameId → Prop) (s t : Store) : Prop where
  outer : ∀ {f}, R f → t.outer? f = s.outer? f
  binding : ∀ {f}, R f → ∀ name, t.binding? f name = s.binding? f name

/-- The numbers below `n` stay, and those from `n` on become the numbers from `m` on. -/
def Renaming.shift (n m k : Nat) : Nat := if k < n then k else k - n + m

/-- The numbers of the first store, and for those that it has yet to give the ones that the second
store gives at the same point. -/
def Renaming.between (s t : Store) : Renaming where
  frame := shift s.next t.next
  closure := shift s.closures t.closures

/-- Frame `f` of the one store and frame `g` of the other are the same but for the numbers. -/
def Renaming.SameFrame (r : Renaming) (s t : Store) (f g : FrameId) : Prop :=
  t.outer? g = (s.outer? f).map r.frame ∧
    ∀ name, t.binding? g name = (s.binding? f name).map (Value.rename r)

/-- A computation that starts from these frames and values and is confined to what they reach. -/
structure Confined (run : Nat → Eval (Option Value)) (frames : List FrameId)
    (values : List Value) : Prop where
  /-- Frames that are not reached keep their bindings. -/
  untouched : ∀ {s s' answer}, Ends run s answer s' →
    ∀ f < s.next, ¬ s.Reaches frames values f → ∀ name, s'.binding? f name = s.binding? f name
  /-- Stores that agree on what is reached give the same answer, agree on it afterwards, and have
  got the same frames. -/
  uninfluenced : ∀ {s t s' answer}, s.WellFormed → t.WellFormed → s.Knows frames values →
    t.Knows frames values → s.AgreeOn (s.Reaches frames values) t → Ends run s answer s' →
    ∃ t', Ends run t ((Renaming.between s t).answer answer) t' ∧
      (∀ f, s.Reaches frames values f → (Renaming.between s t).SameFrame s' t' f f) ∧
      ∀ k, (Renaming.between s t).SameFrame s' t' (s.next + k) (t.next + k)

namespace Renaming

variable {n m j k : Nat}

theorem shift_of_lt (h : k < n) : shift n m k = k := if_pos h

theorem shift_add (n m k : Nat) : shift n m (n + k) = m + k := by
  rw [shift, if_neg (Nat.not_lt.mpr (Nat.le_add_right n k)), Nat.add_sub_cancel_left, Nat.add_comm]

/-- Old numbers that are below the new ones on both sides keep the order. -/
theorem shift_lt_shift (hj : j < n → j < m) (hk : k < n → k < m) :
    shift n m j < shift n m k ↔ j < k := by
  unfold shift
  split <;> split <;> omega

theorem shift_inj (hj : j < n → j < m) (hk : k < n → k < m) (h : shift n m j = shift n m k) :
    j = k := by
  unfold shift at h
  split at h <;> split at h <;> omega

theorem shift_self (n : Nat) : shift n n = fun k => k := by
  funext k
  unfold shift
  split <;> omega

theorem between_eq_id {s t : Store} (hnext : s.next = t.next)
    (hclosures : s.closures = t.closures) : between s t = .id := by
  rw [between, hnext, hclosures, shift_self, shift_self, Renaming.id]

end Renaming

namespace Store

variable {s t : Store} {frames : List FrameId} {values : List Value}

/-! ## Reached frames -/

/-- What is reached in one of two stores that agree on it exists in the other as well. -/
theorem Reaches.lt_next (ht : t.WellFormed) (hknows : t.Knows frames values)
    (hagree : s.AgreeOn (s.Reaches frames values) t) {f : FrameId}
    (h : s.Reaches frames values f) : f < t.next := by
  -- each step is one of `s`, and by agreement one of `t` too
  induction h with
  | frame h => exact hknows.frame_lt _ h
  | value hv h =>
    obtain ⟨id, params, body, hx⟩ := h
    exact (hknows.holds _ hv id params body _ hx).2
  | outer hf h ih =>
    rw [← hagree.outer hf] at h
    exact Nat.lt_trans (ht.outer_lt h) ih
  | bound hf hv h =>
    rw [← hagree.binding hf] at hv
    obtain ⟨id, params, body, hx⟩ := h
    exact (ht.holds hv id params body _ hx).2

/-- A frame that is yet to be made lies in no scope, so one that does is reached. -/
theorem reaches_of_outer? {f o : FrameId} (hf : s.Reaches frames values f ∨ s.next ≤ f)
    (ho : s.outer? f = some o) : s.Reaches frames values f := by
  refine hf.resolve_right fun hle => ?_
  rw [outer?_of_le hle] at ho
  cases ho

/-- Nor does it bind anything. -/
theorem reaches_of_binding? {f : FrameId} {name : String} {v : Value}
    (hf : s.Reaches frames values f ∨ s.next ≤ f) (hv : s.binding? f name = some v) :
    s.Reaches frames values f := by
  refine hf.resolve_right fun hle => ?_
  rw [binding?_of_le hle] at hv
  cases hv

theorem AgreeOn.refl (R : FrameId → Prop) (s : Store) : s.AgreeOn R s where
  outer _ := rfl
  binding _ _ := rfl

/-! ## The run with itself -/

/-- What is reached, with the frames that are yet to be made. -/
def reachedRegion (s : Store) (frames : List FrameId) (values : List Value) : Region .id where
  frames f := s.Reaches frames values f ∨ s.next ≤ f
  closures _ := True
  frame_lt _ _ := Iff.rfl
  closure_inj _ _ h := h

theorem mirrors_self (s : Store) (frames : List FrameId) (values : List Value) :
    Mirrors (s.reachedRegion frames values) s s s where
  outer _ := by
    rw [show Renaming.id.frame = id from rfl, Option.map_id]
    rfl
  outer_mem hf ho := .inl ((reaches_of_outer? hf ho).outer ho)
  binding _ name := by
    rw [funext Value.rename_id, Option.map_id']
    rfl
  within {f name v} hf hv := by
    have hf : s.Reaches frames values f := reaches_of_binding? hf hv
    exact fun id params body home hx => ⟨trivial, .inl (hf.bound hv ⟨id, params, body, hx⟩)⟩
  frame_fresh k := ⟨.inr (Nat.le_add_right _ _), rfl⟩
  closure_fresh k := ⟨trivial, rfl⟩
  outside _ _ := rfl

/-! ## Two runs -/

theorem Holds.rename_between {v : Value} (h : s.Holds v) : v.rename (.between s t) = v := by
  calc v.rename (.between s t) = v.rename .id := by
        exact Value.rename_congr (Value.EveryClosure.mono h fun ⟨hid, hhome⟩ =>
          ⟨Renaming.shift_of_lt hid, Renaming.shift_of_lt hhome⟩)
    _ = v := Value.rename_id v

/-- Frames of both stores, with the frames and closures that are yet to be made. -/
def sharedRegion (s t : Store) (R : FrameId → Prop) (hR : ∀ f, R f → f < t.next) :
    Region (.between s t) where
  frames f := R f ∨ s.next ≤ f
  closures c := c < s.closures → c < t.closures
  frame_lt {f g} hf hg := by
    have hold : ∀ {f}, R f ∨ s.next ≤ f → f < s.next → f < t.next := by
      rintro f (hf | hf) hlt
      · exact hR f hf
      · exact absurd hlt (Nat.not_lt.mpr hf)
    exact Renaming.shift_lt_shift (hold hf) (hold hg)
  closure_inj := Renaming.shift_inj

theorem mirrors_shared (hs : s.WellFormed) (ht : t.WellFormed) (hsknows : s.Knows frames values)
    (htknows : t.Knows frames values) (hagree : s.AgreeOn (s.Reaches frames values) t) :
    Mirrors (sharedRegion s t (s.Reaches frames values)
      fun _ hf => hf.lt_next ht htknows hagree) s s t := by
  -- frames that are reached exist in both stores and keep their numbers
  have hold {f : FrameId} (hf : s.Reaches frames values f) :
      (Renaming.between s t).frame f = f :=
    Renaming.shift_of_lt (hf.lt_next hs hsknows (.refl _ s))
  have hfresh {f : FrameId} (hf : s.next ≤ f) : t.next ≤ (Renaming.between s t).frame f := by
    obtain ⟨k, rfl⟩ := Nat.exists_eq_add_of_le hf
    show t.next ≤ Renaming.shift s.next t.next (s.next + k)
    rw [Renaming.shift_add]
    exact Nat.le_add_right t.next k
  constructor
  case outer =>
    rintro f (hf | hf)
    · rw [hold hf, hagree.outer hf]
      cases ho : s.outer? f with
      | none => rfl
      | some o => rw [Option.map_some, hold (hf.outer ho)]
    · rw [outer?_of_le hf, outer?_of_le (hfresh hf)]
      rfl
  case outer_mem => exact fun hf ho => .inl ((reaches_of_outer? hf ho).outer ho)
  case binding =>
    rintro f (hf | hf) name
    · rw [hold hf, hagree.binding hf]
      cases hv : s.binding? f name with
      | none => rfl
      | some v => rw [Option.map_some, (hs.holds hv).rename_between]
    · rw [binding?_of_le hf, binding?_of_le (hfresh hf)]
      rfl
  case within =>
    intro f name v hf hv id params body home hx
    have hf : s.Reaches frames values f := reaches_of_binding? hf hv
    have hv' : t.binding? f name = some v := (hagree.binding hf name).trans hv
    exact ⟨fun _ => (ht.holds hv' id params body home hx).1,
      .inl (hf.bound hv ⟨id, params, body, hx⟩)⟩
  case frame_fresh => exact fun k => ⟨.inr (Nat.le_add_right _ _), Renaming.shift_add _ _ k⟩
  case closure_fresh =>
    exact fun k => ⟨fun h => absurd h (Nat.not_lt.mpr (Nat.le_add_right _ _)),
      Renaming.shift_add _ _ k⟩
  case outside => exact fun _ _ => rfl

end Store

/-! ## Confinement -/

theorem Store.Mirrors.sameFrame {r : Renaming} {P : Region r} {s₀ s t : Store}
    (h : Mirrors P s₀ s t) {f : FrameId} (hf : P.frames f) : r.SameFrame s t f (r.frame f) :=
  ⟨h.outer hf, h.binding hf⟩

/-- A computation is confined if it agrees with itself on every region that holds what it starts
from, under every renaming that keeps that as it is. -/
theorem confined_of_simulates {run : Nat → Eval (Option Value)} {frames : List FrameId}
    {values : List Value}
    (h : ∀ {r : Renaming} (P : Region r) (s₀ : Store),
      (∀ f ∈ frames, P.frames f ∧ r.frame f = f) → (∀ v ∈ values, P.Within v ∧ v.rename r = v) →
      ∀ depth, (P.simulation s₀).Simulates () (P.simulation s₀).SameResult (run depth) (run depth)) :
    Confined run frames values where
  untouched {s s' answer} hends f hf hreach name := by
    have hrun := h (s.reachedRegion frames values) s (fun f hf => ⟨.inl (.frame hf), rfl⟩)
      fun v hv => ⟨fun id params body home hx => ⟨trivial, .inl (.value hv ⟨id, params, body, hx⟩)⟩,
        v.rename_id⟩
    obtain ⟨_, t', _, _, hmirrors, _⟩ := Simulation.ends hrun (s.mirrors_self frames values) hends
    refine Store.Mirrors.outside hmirrors ?_ name
    rintro (h | h)
    · exact hreach h
    · exact absurd hf (Nat.not_lt.mpr h)
  uninfluenced {s t s' answer} hs ht hsknows htknows hagree hends := by
    have hlt : ∀ f, s.Reaches frames values f → f < t.next :=
      fun _ hf => hf.lt_next ht htknows hagree
    have hrun := h (Store.sharedRegion s t _ hlt) s
      (fun f hf => ⟨.inl (.frame hf), Renaming.shift_of_lt (hsknows.frame_lt f hf)⟩)
      fun v hv => ⟨fun id params body home hx => ⟨fun _ => (htknows.holds v hv _ _ _ _ hx).1,
        .inl (.value hv ⟨id, params, body, hx⟩)⟩, (hsknows.holds v hv).rename_between⟩
    obtain ⟨_, t', hends', _, hmirrors, _⟩ := Simulation.ends hrun
      (Store.mirrors_shared hs ht hsknows htknows hagree) hends
    refine ⟨t', hends', fun f hf => ?_, fun k => ?_⟩
    · have hold : (Renaming.between s t).frame f = f :=
        Renaming.shift_of_lt (hf.lt_next hs hsknows (.refl _ s))
      have hsame := Store.Mirrors.sameFrame hmirrors (.inl hf)
      rwa [hold] at hsame
    · have hnew : (Renaming.between s t).frame (s.next + k) = t.next + k :=
        Renaming.shift_add s.next t.next k
      have hsame := Store.Mirrors.sameFrame hmirrors (.inr (Nat.le_add_right s.next k))
      rwa [hnew] at hsame

/-- Between stores that have made as many frames and closures the runs are the same outright. -/
theorem Confined.uninfluenced_of_eq {run : Nat → Eval (Option Value)} {frames : List FrameId}
    {values : List Value} (h : Confined run frames values) {s t s' : Store}
    {answer : Except EvalError (Option Value)} (hs : s.WellFormed) (ht : t.WellFormed)
    (hsknows : s.Knows frames values) (htknows : t.Knows frames values)
    (hagree : s.AgreeOn (s.Reaches frames values) t) (hnext : s.next = t.next)
    (hclosures : s.closures = t.closures) (hends : Ends run s answer s') :
    ∃ t', Ends run t answer t' ∧ s'.AgreeOn (s.Reaches frames values) t' := by
  obtain ⟨t', hends', hsame, -⟩ := h.uninfluenced hs ht hsknows htknows hagree hends
  rw [Renaming.between_eq_id hnext hclosures] at hends' hsame
  rw [Renaming.answer_id] at hends'
  refine ⟨t', hends', fun hf => ?_, fun hf name => ?_⟩
  · rw [(hsame _ hf).1, show Renaming.id.frame = id from rfl, Option.map_id]
    rfl
  · rw [(hsame _ hf).2 name, funext Value.rename_id, Option.map_id']

/-- **Evaluation is confined to what its frame and its expression reach, and a call to what the
procedure and the arguments reach.** -/
theorem evaluation_confined :
    (∀ expr f, Confined (fun depth => eval depth expr f) [f] [expr]) ∧
      ∀ procedure args, Confined (fun depth => call depth procedure args) []
        (procedure :: args) := by
  constructor
  · intro expr f
    refine confined_of_simulates fun P s₀ hframes hvalues depth => ?_
    obtain ⟨hf, hframe⟩ := hframes f (by simp)
    obtain ⟨hcode, hexpr⟩ := hvalues expr (by simp)
    have hrun := (P.simulation s₀).evaluators_eval (w := ()) (Nat.le_refl depth) hcode hf
    rwa [hexpr, hframe] at hrun
  · intro procedure args
    refine confined_of_simulates fun {r} P s₀ _ hvalues depth => ?_
    obtain ⟨hdata, hprocedure⟩ := hvalues procedure (by simp)
    have hargs : args.map (Value.rename r) = args.map id :=
      List.map_congr_left fun a ha => (hvalues a (List.mem_cons_of_mem _ ha)).2
    have hrun := (P.simulation s₀).simulates_call (w := ()) (Nat.le_refl depth) hdata
      fun a ha => (hvalues a (List.mem_cons_of_mem _ ha)).1
    rwa [hprocedure, hargs, List.map_id] at hrun

/-- A closure over the global frame sees `y` there, in stores whose other frames differ. -/
theorem call_confined_to_global :
    let made := ((Store.empty.pushEmpty.define 0 "y" (.integer 1)).makeClosure [] (.symbol "y") 0)
    let t := ((made.2.pushChild 0).define 1 "y" (.integer 20)).pushChild 1
    ∃ t', Ends (fun depth => call depth made.1 []) t (.ok (some (.integer 1))) t' ∧
      t'.binding? 0 "y" = some (.integer 1) := by
  intro made t
  let s := (made.2.pushChild 0).define 1 "y" (.integer 10)
  have hmade : made.2.WellFormed :=
    (Store.wellFormed_empty.pushEmpty.define (Value.everyClosure_integer 1)).count
  have hchild : (made.2.pushChild 0).WellFormed := hmade.pushChild (by decide)
  have hs : s.WellFormed := hchild.define (Value.everyClosure_integer 10)
  have ht : t.WellFormed := (hchild.define (Value.everyClosure_integer 20)).pushChild (by decide)
  have hclosure {s : Store} (hid : 0 < s.closures) (hhome : 0 < s.next) :
      s.Knows [] [made.1] := by
    refine ⟨by simp, fun v hv => ?_⟩
    obtain rfl := List.mem_singleton.mp hv
    exact Value.everyClosure_closure.mpr ⟨⟨hid, hhome⟩, Value.everyClosure_symbol "y"⟩
  have hcaptures {home : FrameId} (h : made.1.Captures home) : home = 0 := by
    obtain ⟨id, params, body, hx⟩ := h
    cases hx with
    | self => rfl
    | body hx => cases hx
  have hbound {home : FrameId} {name : String} {v : Value} (hv : s.binding? 0 name = some v)
      (h : v.Captures home) : False := by
    have hmem : (name, v) ∈ [("y", Value.integer 1)] := Bindings.mem_of_get? hv
    obtain ⟨id, params, body, hx⟩ := h
    obtain ⟨-, rfl⟩ : name = "y" ∧ v = .integer 1 := by simpa using hmem
    cases hx
  have hreach : ∀ {f}, s.Reaches [] [made.1] f → f = 0 := by
    intro f h
    induction h with
    | frame h => cases h
    | value hv h => exact hcaptures (List.mem_singleton.mp hv ▸ h)
    | outer hf h ih =>
      subst ih
      cases h
    | bound hf hv h ih =>
      subst ih
      exact (hbound hv h).elim
  have hagree : s.AgreeOn (s.Reaches [] [made.1]) t := by
    refine ⟨fun hf => ?_, fun hf name => ?_⟩
    · obtain rfl := hreach hf
      rfl
    · obtain rfl := hreach hf
      rfl
  have hends : Ends (fun depth => call depth made.1 []) s (.ok (some (.integer 1)))
      (s.pushNested [] [] 0) := by
    have hroot : (s.pushNested [] [] 0).chain 0 = [0] := by
      rw [Store.chain]
      rfl
    have hchain : (s.pushNested [] [] 0).chain 2 = [2, 0] := by
      rw [Store.chain]
      show 2 :: (s.pushNested [] [] 0).chain 0 = _
      rw [hroot]
    have hget : (s.pushNested [] [] 0).get? 2 "y" = some (.integer 1) := by
      rw [Store.get?, Store.find?, hchain]
      rfl
    have hcall : call 1 made.1 [] = (do let f ← enter [] [] 0; eval 1 (.symbol "y") f) := by
      show apply (eval 1) (.closure 0 [] (.symbol "y") 0) [] = _
      rw [apply]
      rfl
    have hbody : eval 1 (.symbol "y") 2 (s.pushNested [] [] 0) =
        .ok (some (.integer 1)) (s.pushNested [] [] 0) := by
      show (some <$> lookup 2 "y") (s.pushNested [] [] 0) = _
      rw [map_eq_pure_bind, bind_apply, lookup_apply, hget]
      rfl
    refine ⟨1, ?_⟩
    show call 1 made.1 [] s = _
    rw [hcall, bind_apply, enter_apply]
    exact hbody
  obtain ⟨t', hends', hsame, -⟩ := (evaluation_confined.2 made.1 []).uninfluenced hs ht
    (hclosure (by decide) (by decide)) (hclosure (by decide) (by decide)) hagree hends
  refine ⟨t', hends', ?_⟩
  exact (hsame 0 (.value List.mem_cons_self ⟨0, [], .symbol "y", .self⟩)).2 "y"

end ScopedLisp
