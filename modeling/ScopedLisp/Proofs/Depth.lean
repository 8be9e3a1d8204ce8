import ScopedLisp.Proofs.Invariant

/-!
# Runs that end

The depth that a run is granted is a device: a run that ends within one depth ends in the same way
within every greater depth. So a terminating run has one answer and one final store, whatever the
depth, and `Ends` states these without it.

That more depth changes nothing is the simplest comparison of all: the invariant that every store
has, with more depth in the second run.
-/

namespace ScopedLisp

open Eval

namespace Eval

variable {α β : Type}

/-- The outcome of a run that was not cut off. -/
def ended : Except EvalError α → Store → EStateM.Result Stop Store α
  | .ok a, s => .ok a s
  | .error e, s => .error (.error e) s

/-- Started in `s` and granted enough depth, the run ends with this answer and this store. -/
def Ends (run : Nat → Eval α) (s : Store) (answer : Except EvalError α) (s' : Store) : Prop :=
  ∃ depth, run depth s = ended answer s'

/-- More depth does not change how the run ends. -/
def Stable (run : Nat → Eval α) : Prop :=
  ∀ depth depth' s answer s', depth ≤ depth' → run depth s = ended answer s' →
    run depth' s = ended answer s'

theorem ended_inj {a b : Except EvalError α} {s t : Store} (h : ended a s = ended b t) :
    a = b ∧ s = t := by
  cases a with
  | ok => cases b <;> cases h; exact ⟨rfl, rfl⟩
  | error => cases b <;> cases h; exact ⟨rfl, rfl⟩

/-- A terminating run has one answer and one final store. -/
theorem Ends.unique {run : Nat → Eval α} (hrun : Stable run) {s s₁ s₂ : Store}
    {a b : Except EvalError α} (ha : Ends run s a s₁) (hb : Ends run s b s₂) : a = b ∧ s₁ = s₂ := by
  obtain ⟨m, hm⟩ := ha
  obtain ⟨n, hn⟩ := hb
  have hm' := hrun _ _ _ _ _ (Nat.le_max_left m n) hm
  have hn' := hrun _ _ _ _ _ (Nat.le_max_right m n) hn
  exact ended_inj (hm'.symm.trans hn')

theorem Ends.iff {run : Nat → Eval α} (hrun : Stable run) {s s₁ s' : Store}
    {a answer : Except EvalError α} (h : Ends run s a s₁) :
    Ends run s answer s' ↔ answer = a ∧ s' = s₁ := by
  constructor
  · intro h'
    exact Ends.unique hrun h' h
  · intro ⟨hanswer, hs⟩
    rwa [hanswer, hs]

theorem stable_const (m : Eval α) : Stable fun _ => m := fun _ _ _ _ _ _ h => h

/-- A sequence ends as its first part when that fails, and otherwise as its second part. -/
theorem bind_eq_ended_iff {m : Eval α} {k : α → Eval β} {s s' : Store}
    {answer : Except EvalError β} :
    (m >>= k) s = ended answer s' ↔
      (∃ e, answer = .error e ∧ m s = ended (.error e) s') ∨
        ∃ a s₁, m s = ended (.ok a) s₁ ∧ k a s₁ = ended answer s' := by
  rw [bind_apply]
  cases hm : m s with
  | ok a s₁ =>
    constructor
    · exact fun h => .inr ⟨a, s₁, rfl, h⟩
    · rintro (⟨e, -, h⟩ | ⟨b, s₂, h, hk⟩)
      · cases h
      · cases h
        exact hk
  | error stop s₁ =>
    constructor
    · intro h
      cases answer with
      | ok b => cases h
      | error e =>
        cases h
        exact .inl ⟨e, rfl, rfl⟩
    · rintro (⟨e, rfl, h⟩ | ⟨b, s₂, h, hk⟩)
      · cases h
        rfl
      · cases h

/-- A sequence that goes well has gone well in both parts. -/
theorem bind_eq_ended_ok {m : Eval α} {k : α → Eval β} {s s' : Store} {b : β}
    (h : (m >>= k) s = ended (.ok b) s') :
    ∃ a s₁, m s = ended (.ok a) s₁ ∧ k a s₁ = ended (.ok b) s' := by
  rcases bind_eq_ended_iff.mp h with ⟨e, he, -⟩ | hparts
  · cases he
  · exact hparts

theorem pure_eq_ended_iff {a : α} {s s' : Store} {answer : Except EvalError α} :
    (pure a : Eval α) s = ended answer s' ↔ answer = .ok a ∧ s' = s := by
  constructor
  · intro h
    obtain ⟨rfl, rfl⟩ := ended_inj (a := .ok a) (s := s) h
    exact ⟨rfl, rfl⟩
  · intro ⟨hanswer, hs⟩
    rw [hanswer, hs]
    rfl

theorem ends_pure_iff {a : α} {s s' : Store} {answer : Except EvalError α} :
    Ends (fun _ => pure a) s answer s' ↔ answer = .ok a ∧ s' = s := by
  constructor
  · intro ⟨_, h⟩
    exact pure_eq_ended_iff.mp h
  · intro h
    exact ⟨0, pure_eq_ended_iff.mpr h⟩

theorem fail_eq_ended_iff {e : EvalError} {s s' : Store} {answer : Except EvalError α} :
    (fail e : Eval α) s = ended answer s' ↔ answer = .error e ∧ s' = s := by
  constructor
  · intro h
    obtain ⟨rfl, rfl⟩ := ended_inj (a := .error e) (s := s) h
    exact ⟨rfl, rfl⟩
  · intro ⟨hanswer, hs⟩
    rw [hanswer, hs]
    rfl

theorem ofExcept_eq_ended_iff {x : Except EvalError α} {s s' : Store}
    {answer : Except EvalError α} : ofExcept x s = ended answer s' ↔ answer = x ∧ s' = s := by
  cases x with
  | ok a => exact pure_eq_ended_iff
  | error e => exact fail_eq_ended_iff

/-- What an answer is where a value is required: producing nothing is an error. -/
def requiredAnswer (expr : Value) : Except EvalError (Option Value) → Except EvalError Value
  | .ok (some v) => .ok v
  | .ok none => .error (.type (.noValue expr))
  | .error e => .error e

theorem requiredAnswer_eq_ok_iff {expr v : Value} {a : Except EvalError (Option Value)} :
    requiredAnswer expr a = .ok v ↔ a = .ok (some v) := by
  match a with
  | .ok (some w) =>
    constructor
    · intro h
      cases h
      rfl
    · intro h
      cases h
      rfl
  | .ok none => exact ⟨nofun, nofun⟩
  | .error e => exact ⟨nofun, nofun⟩

theorem required_eq_ended_iff {ev : Evaluator} {f : FrameId} {expr : Value} {s s' : Store}
    {answer : Except EvalError Value} :
    required ev f expr s = ended answer s' ↔
      ∃ a, ev expr f s = ended a s' ∧ answer = requiredAnswer expr a := by
  unfold required
  rw [bind_eq_ended_iff]
  constructor
  · intro h
    rcases h with ⟨e, rfl, h⟩ | ⟨o, s₁, h, hrest⟩
    · exact ⟨.error e, h, rfl⟩
    · cases o with
      | none =>
        obtain ⟨rfl, rfl⟩ := fail_eq_ended_iff.mp hrest
        exact ⟨.ok none, h, rfl⟩
      | some v =>
        obtain ⟨rfl, rfl⟩ := pure_eq_ended_iff.mp hrest
        exact ⟨.ok (some v), h, rfl⟩
  · intro ⟨a, h, hanswer⟩
    subst hanswer
    cases a with
    | error e => exact .inl ⟨e, rfl, h⟩
    | ok o =>
      refine .inr ⟨o, s', h, ?_⟩
      cases o with
      | none => exact fail_eq_ended_iff.mpr ⟨rfl, rfl⟩
      | some v => exact pure_eq_ended_iff.mpr ⟨rfl, rfl⟩

theorem Stable.bind {m : Nat → Eval α} {k : Nat → α → Eval β} (hm : Stable m)
    (hk : ∀ a, Stable fun depth => k depth a) : Stable fun depth => m depth >>= k depth := by
  intro depth depth' s answer s' hle h
  rcases bind_eq_ended_iff.mp h with ⟨e, rfl, hfirst⟩ | ⟨a, s₁, hfirst, hrest⟩
  · exact bind_eq_ended_iff.mpr (.inl ⟨e, rfl, hm _ _ _ _ _ hle hfirst⟩)
  · have hfirst' := hm _ _ _ _ _ hle hfirst
    exact bind_eq_ended_iff.mpr (.inr ⟨a, s₁, hfirst', hk a _ _ _ _ _ hle hrest⟩)

theorem Stable.bind_pure {m : Nat → Eval α} (hm : Stable m) (g : α → β) :
    Stable fun depth => m depth >>= fun a => pure (g a) :=
  hm.bind fun a => stable_const (pure (g a))

/-- What is only computed from a result changes no store and cannot fail. -/
theorem ends_bind_pure {m : Nat → Eval α} {g : α → β} {s s' : Store} {a : Except EvalError α}
    (h : Ends m s a s') : Ends (fun depth => m depth >>= fun a => pure (g a)) s (a.map g) s' := by
  obtain ⟨depth, hm⟩ := h
  refine ⟨depth, bind_eq_ended_iff.mpr ?_⟩
  cases a with
  | error e => exact .inl ⟨e, rfl, hm⟩
  | ok a => exact .inr ⟨a, s', hm, rfl⟩

/-- The two parts of a sequence may be granted depths of their own. -/
theorem ends_bind_iff {m : Nat → Eval α} {k : Nat → α → Eval β} (hm : Stable m)
    (hk : ∀ a, Stable fun depth => k depth a) {s s' : Store} {answer : Except EvalError β} :
    Ends (fun depth => m depth >>= k depth) s answer s' ↔
      (∃ e, answer = .error e ∧ Ends m s (.error e) s') ∨
        ∃ a s₁, Ends m s (.ok a) s₁ ∧ Ends (fun depth => k depth a) s₁ answer s' := by
  constructor
  · rintro ⟨depth, h⟩
    rcases bind_eq_ended_iff.mp h with ⟨e, rfl, hfirst⟩ | ⟨a, s₁, hfirst, hrest⟩
    · exact .inl ⟨e, rfl, depth, hfirst⟩
    · exact .inr ⟨a, s₁, ⟨depth, hfirst⟩, depth, hrest⟩
  · rintro (⟨e, rfl, depth, hfirst⟩ | ⟨a, s₁, ⟨d₁, hfirst⟩, d₂, hrest⟩)
    · exact ⟨depth, bind_eq_ended_iff.mpr (.inl ⟨e, rfl, hfirst⟩)⟩
    · -- the greater depth is enough for both parts
      refine ⟨max d₁ d₂, bind_eq_ended_iff.mpr (.inr ⟨a, s₁, ?_, ?_⟩)⟩
      · exact hm _ _ _ _ _ (Nat.le_max_left d₁ d₂) hfirst
      · exact hk a _ _ _ _ _ (Nat.le_max_right d₁ d₂) hrest

/-- After a first part with a result, a sequence ends as its second part does. -/
theorem ends_bind_of_ok {m : Nat → Eval α} {k : Nat → α → Eval β} (hm : Stable m)
    (hk : ∀ a, Stable fun depth => k depth a) {s s₁ s' : Store} {a : α}
    {answer : Except EvalError β} (h : Ends m s (.ok a) s₁) :
    Ends (fun depth => m depth >>= k depth) s answer s' ↔
      Ends (fun depth => k depth a) s₁ answer s' := by
  rw [ends_bind_iff hm hk]
  constructor
  · intro hends
    rcases hends with ⟨e, -, hfirst⟩ | ⟨b, s₂, hfirst, hrest⟩
    · cases (Ends.unique hm hfirst h).1
    · obtain ⟨hb, rfl⟩ := Ends.unique hm hfirst h
      cases hb
      exact hrest
  · intro hrest
    exact .inr ⟨a, s₁, h, hrest⟩

/-- A first part that fails is all of a sequence. -/
theorem ends_bind_of_error {m : Nat → Eval α} {k : Nat → α → Eval β} (hm : Stable m)
    (hk : ∀ a, Stable fun depth => k depth a) {s s₁ s' : Store} {e : EvalError}
    {answer : Except EvalError β} (h : Ends m s (.error e) s₁) :
    Ends (fun depth => m depth >>= k depth) s answer s' ↔ answer = .error e ∧ s' = s₁ :=
  Ends.iff (hm.bind hk) ((ends_bind_iff hm hk).mpr (.inl ⟨e, rfl, h⟩))

end Eval

/-! ## Endings under a simulation -/

/-- The answer with the new numbers. -/
def Renaming.answer (r : Renaming) : Except EvalError (Option Value) → Except EvalError (Option Value)
  | .ok o => .ok (o.map (Value.rename r))
  | .error e => .error (e.rename r)

theorem Renaming.answer_id (answer : Except EvalError (Option Value)) :
    Renaming.id.answer answer = answer := by
  cases answer with
  | ok o => cases o <;> simp [answer, Value.rename_id]
  | error e => rw [answer, EvalError.rename_id]

namespace Simulation

variable {r : Renaming} {S : Simulation r} {w : S.World}

theorem Simulates.ended {m m' : Eval (Option Value)} (h : S.Simulates w S.SameResult m m')
    {s t s' : Store} {answer : Except EvalError (Option Value)} (hst : S.Related w s t)
    (hm : m s = ended answer s') :
    ∃ w' t', m' t = ended (r.answer answer) t' ∧ S.Later w w' ∧ S.Related w' s' t' ∧
      ∀ v, answer = .ok (some v) → S.Data w' v := by
  have hagree := h s t hst
  rw [hm] at hagree
  generalize m' t = outcome at hagree
  cases answer with
  | ok o =>
    cases hagree with
    | @ok w' _ _ _ t' hw hst' hab =>
      obtain ⟨hdata, rfl⟩ := hab
      exact ⟨w', t', rfl, hw, hst', fun v hv => hdata v (Except.ok.inj hv)⟩
  | error e =>
    cases hagree with
    | @error w' _ _ t' hw hst' => exact ⟨w', t', rfl, hw, hst', nofun⟩

theorem ends {run run' : Nat → Eval (Option Value)}
    (h : ∀ depth, S.Simulates w S.SameResult (run depth) (run' depth)) {s t s' : Store}
    {answer : Except EvalError (Option Value)} (hst : S.Related w s t) (hends : Ends run s answer s') :
    ∃ w' t', Ends run' t (r.answer answer) t' ∧ S.Later w w' ∧ S.Related w' s' t' ∧
      ∀ v, answer = .ok (some v) → S.Data w' v := by
  obtain ⟨depth, hrun⟩ := hends
  obtain ⟨w', t', hrun', hrest⟩ := (h depth).ended hst hrun
  exact ⟨w', t', ⟨depth, hrun'⟩, hrest⟩

end Simulation

/-- What holds before a run holds after it, and of its result. -/
theorem Invariant.ends (I : Invariant) {w : I.World} {run : Nat → Eval (Option Value)}
    (h : ∀ depth, I.simulation.Simulates w I.simulation.SameResult (run depth) (run depth))
    {s s' : Store} {answer : Except EvalError (Option Value)} (hs : I.Holds w s)
    (hends : Ends run s answer s') :
    ∃ w', I.Later w w' ∧ I.Holds w' s' ∧ ∀ v, answer = .ok (some v) → I.Data w' v := by
  obtain ⟨w', -, -, hw, ⟨-, hs'⟩, hdata⟩ := I.simulation.ends h ⟨rfl, hs⟩ hends
  exact ⟨w', hw, hs', hdata⟩

/-! ## More depth -/

theorem stable_of_simulates {run : Nat → Eval (Option Value)}
    (h : ∀ depth depth', depth ≤ depth' → Invariant.trivial.simulation.Simulates ()
      Invariant.trivial.simulation.SameResult (run depth) (run depth')) : Stable run := by
  intro depth depth' s answer s' hle hends
  obtain ⟨-, t', hends', -, ⟨rfl, -⟩, -⟩ := (h depth depth' hle).ended ⟨rfl, .intro⟩ hends
  rwa [Renaming.answer_id] at hends'

theorem eval_stable (expr : Value) (f : FrameId) : Stable fun depth => eval depth expr f :=
  stable_of_simulates fun _ _ hle => Invariant.trivial.simulates_eval hle .intro .intro

theorem call_stable (procedure : Value) (args : List Value) :
    Stable fun depth => call depth procedure args :=
  stable_of_simulates fun _ _ hle => Invariant.trivial.simulates_call hle .intro fun _ _ => .intro

/-- What an expression does is one step, with the expressions inside it evaluated. -/
theorem ends_eval_iff {expr : Value} {f : FrameId} {s s' : Store}
    {answer : Except EvalError (Option Value)} :
    Ends (fun depth => eval depth expr f) s answer s' ↔
      Ends (fun depth => step (eval depth) expr f) s answer s' := by
  constructor
  · rintro ⟨depth, h⟩
    cases depth with
    | zero => cases answer <;> cases h
    | succ depth => exact ⟨depth, h⟩
  · rintro ⟨depth, h⟩
    exact ⟨depth + 1, h⟩

/-! ## Values of expressions and calls -/

/-- Evaluated in frame `f`, the expression has this value. -/
abbrev HasValue (f : FrameId) (expr : Value) (s : Store) (v : Value) (s' : Store) : Prop :=
  Ends (fun depth => eval depth expr f) s (.ok (some v)) s'

/-- Called with these arguments, the procedure gives this value. -/
abbrev Gives (procedure : Value) (args : List Value) (s : Store) (v : Value) (s' : Store) : Prop :=
  Ends (fun depth => call depth procedure args) s (.ok (some v)) s'

theorem HasValue.unique {f : FrameId} {expr v v' : Value} {s s₁ s₂ : Store}
    (h : HasValue f expr s v s₁) (h' : HasValue f expr s v' s₂) : v = v' ∧ s₁ = s₂ := by
  obtain ⟨hv, rfl⟩ := Ends.unique (eval_stable expr f) h h'
  cases hv
  exact ⟨rfl, rfl⟩

theorem Gives.unique {procedure : Value} {args : List Value} {v v' : Value} {s s₁ s₂ : Store}
    (h : Gives procedure args s v s₁) (h' : Gives procedure args s v' s₂) : v = v' ∧ s₁ = s₂ := by
  obtain ⟨hv, rfl⟩ := Ends.unique (call_stable procedure args) h h'
  cases hv
  exact ⟨rfl, rfl⟩

/-! ## Values where they are required -/

/-- The value that a run gives. To give nothing is the error `nothing`. -/
def demanded (nothing : EvalError) (m : Eval (Option Value)) : Eval Value := do
  match ← m with
  | some v => pure v
  | none => fail nothing

section

variable {m : Nat → Eval (Option Value)} {nothing : EvalError} {f : FrameId} {expr : Value}
  {s s' : Store}

theorem stable_demanded (hm : Stable m) (nothing : EvalError) :
    Stable fun depth => demanded nothing (m depth) := by
  refine hm.bind fun answer => ?_
  cases answer with
  | some v => exact stable_const (pure v)
  | none => exact stable_const (fail nothing)

theorem ends_demanded_ok_iff {v : Value} :
    Ends (fun depth => demanded nothing (m depth)) s (.ok v) s' ↔ Ends m s (.ok (some v)) s' := by
  refine exists_congr fun depth => ?_
  constructor
  · intro h
    obtain ⟨answer, s₁, hm, hrest⟩ := bind_eq_ended_ok h
    cases answer with
    | none => cases (fail_eq_ended_iff.mp hrest).1
    | some w =>
      obtain ⟨hv, rfl⟩ := pure_eq_ended_iff.mp hrest
      cases hv
      exact hm
  · intro h
    exact bind_eq_ended_iff.mpr (.inr ⟨some v, s', h, rfl⟩)

theorem ends_demanded_error_iff {e : EvalError} :
    Ends (fun depth => demanded nothing (m depth)) s (.error e) s' ↔
      Ends m s (.error e) s' ∨ Ends m s (.ok none) s' ∧ e = nothing := by
  constructor
  · rintro ⟨depth, h⟩
    rcases bind_eq_ended_iff.mp h with ⟨_, he, hm⟩ | ⟨answer, s₁, hm, hrest⟩
    · cases he
      exact .inl ⟨depth, hm⟩
    · cases answer with
      | none =>
        obtain ⟨he, rfl⟩ := fail_eq_ended_iff.mp hrest
        exact .inr ⟨⟨depth, hm⟩, Except.error.inj he⟩
      | some w => cases (pure_eq_ended_iff.mp hrest).1
  · rintro (⟨depth, hm⟩ | ⟨⟨depth, hm⟩, rfl⟩)
    · exact ⟨depth, bind_eq_ended_iff.mpr (.inl ⟨e, rfl, hm⟩)⟩
    · exact ⟨depth, bind_eq_ended_iff.mpr (.inr ⟨none, s', hm, rfl⟩)⟩

theorem required_stable (f : FrameId) (expr : Value) :
    Stable fun depth => required (eval depth) f expr :=
  stable_demanded (eval_stable expr f) _

theorem ends_required_iff {answer : Except EvalError Value} :
    Ends (fun depth => required (eval depth) f expr) s answer s' ↔
      ∃ a, Ends (fun depth => eval depth expr f) s a s' ∧ answer = requiredAnswer expr a := by
  constructor
  · intro ⟨depth, h⟩
    obtain ⟨a, hends, hanswer⟩ := required_eq_ended_iff.mp h
    exact ⟨a, ⟨depth, hends⟩, hanswer⟩
  · intro ⟨a, ⟨depth, hends⟩, hanswer⟩
    exact ⟨depth, required_eq_ended_iff.mpr ⟨a, hends, hanswer⟩⟩

theorem ends_required_ok_iff {v : Value} :
    Ends (fun depth => required (eval depth) f expr) s (.ok v) s' ↔ HasValue f expr s v s' :=
  ends_demanded_ok_iff

theorem ends_required_error_iff {e : EvalError} :
    Ends (fun depth => required (eval depth) f expr) s (.error e) s' ↔
      Ends (fun depth => eval depth expr f) s (.error e) s' ∨
        Ends (fun depth => eval depth expr f) s (.ok none) s' ∧ e = .type (.noValue expr) :=
  ends_demanded_error_iff

end

end ScopedLisp
