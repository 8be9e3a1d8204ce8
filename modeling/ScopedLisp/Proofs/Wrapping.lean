import Mathlib.Data.Int.ModEq
import ScopedLisp.Proofs.Application
import ScopedLisp.Proofs.Identity

/-!
# Integers modulo `2 ^ 64`

Integers are words of 64 bits, and each sum, difference and product drops what does not fit. For a
term of any depth that makes no difference: the words are the integers modulo `2 ^ 64`, so to drop
it at each step is to compute exactly and drop it once (`RingTerm.hasValue`). With quotients and
absolute values it is different, but there a single value does not fit, that of the lowest integer
with its sign changed.
-/

namespace ScopedLisp

open Eval

/-! ## Operations of a root frame -/

variable {f home : FrameId} {s s' : Store} {answer : Except EvalError (Option Value)}

/-- An expression with the name of an operation at its head ends with what the operation answers. -/
theorem ends_operation_iff {op : Operation} {operands values : List Value}
    (hop : s.get? f op.name = some (.primitive (.operation op) home))
    (hoperands : InTurn (HasValue f) operands s values s) :
    Ends (fun depth => eval depth (.list (.symbol op.name :: operands)) f) s answer s' ↔
      answer = some <$> op.run values ∧ s' = s := by
  rw [ends_application_iff_of_values (by simp) (hasValue_symbol hop) hoperands]
  exact ends_call_operation_iff

/-- A new root frame has every operation under its name. -/
theorem get?_pushRoot (s : Store) (op : Operation) :
    s.pushRoot.get? s.next op.name = some (.primitive (.operation op) s.next) :=
  Store.get?_push_self (get?_rootBindings (.operation op) s.next)

theorem hasValue_integer (n : Int64) (f : FrameId) (s : Store) :
    HasValue f (.integer n) s (.integer n) s := ⟨1, rfl⟩

/-! ## Terms -/

/-- A sum, a difference or a product. -/
inductive RingOperation where
  | add
  | sub
  | mul
deriving DecidableEq, Repr

namespace RingOperation

/-- The operation of the language. -/
def operation : RingOperation → Operation
  | add => .binary (.arithmetic .add)
  | sub => .binary (.arithmetic .sub)
  | mul => .binary (.arithmetic .mul)

/-- The operation on integers that have no bounds. -/
def exact : RingOperation → Int → Int → Int
  | add, x, y => x + y
  | sub, x, y => x - y
  | mul, x, y => x * y

/-- The operation of the language is the exact one on what words stand for. -/
theorem run_ofInt (op : RingOperation) (x y : Int) :
    op.operation.run [.integer (.ofInt x), .integer (.ofInt y)] =
      .ok (.integer (.ofInt (op.exact x y))) := by
  cases op with
  | add => rw [exact, Int64.ofInt_add]; rfl
  | sub => rw [exact, Int64.ofInt_sub]; rfl
  | mul => rw [exact, Int64.ofInt_mul]; rfl

end RingOperation

/-- Integer literals under calls of `+`, `-` and `*` with two operands. -/
inductive RingTerm where
  | literal (n : Int64)
  | call (op : RingOperation) (left right : RingTerm)

namespace RingTerm

/-- The term as an expression of the language. -/
def expression : RingTerm → Value
  | literal n => .integer n
  | call op left right => .list [.symbol op.operation.name, left.expression, right.expression]

/-- The value of the term among the integers. -/
def exact : RingTerm → Int
  | literal n => n.toInt
  | call op left right => op.exact left.exact right.exact

/-- **Dropping at each step is dropping once.** -/
theorem hasValue (t : RingTerm)
    (hops : ∀ op : RingOperation,
      s.get? f op.operation.name = some (.primitive (.operation op.operation) home)) :
    HasValue f t.expression s (.integer (.ofInt t.exact)) s := by
  induction t with
  | literal n =>
    rw [exact, Int64.ofInt_toInt]
    exact hasValue_integer n f s
  | call op left right ihl ihr =>
    refine (ends_operation_iff (hops op) (.cons ihl (.cons ihr .nil))).mpr ⟨?_, rfl⟩
    rw [op.run_ofInt]
    rfl

end RingTerm

/-! ## Words -/

theorem toInt_ofInt_modEq (x : Int) : (Int64.ofInt x).toInt ≡ x [ZMOD 2 ^ 64] := by
  rw [Int64.toInt_ofInt]
  exact Int.bmod_emod

/-- A quotient drops its fraction. One of them does not fit. -/
theorem toInt_quotient (a b : Int64) :
    (a / b).toInt =
      if a.toInt = -2 ^ 63 ∧ b.toInt = -1 then -2 ^ 63 else a.toInt.tdiv b.toInt := by
  have hmin : a.toInt = -2 ^ 63 ↔ a = Int64.minValue := by
    rw [← Int64.toInt_minValue, Int64.toInt_inj]
  have hone : b.toInt = -1 ↔ b = -1 := by
    rw [← Int64.toInt_inj]
    rfl
  split
  · next h =>
    rw [hmin.mp h.1, hone.mp h.2]
    decide
  · next h =>
    rw [hmin, hone, not_and_or] at h
    rcases h with ha | hb
    · exact Int64.toInt_div_of_ne_left a b ha
    · exact Int64.toInt_div_of_ne_right a b hb

/-- One absolute value does not fit. -/
theorem toInt_abs (a : Int64) :
    a.abs.toInt = if a.toInt = -2 ^ 63 then -2 ^ 63 else |a.toInt| := by
  have hmin : a.toInt = -2 ^ 63 ↔ a.toBitVec = BitVec.intMin 64 := by
    rw [← Int64.toInt_minValue, Int64.toInt_inj, ← Int64.toBitVec_inj]
    rfl
  rw [← Int64.toInt_toBitVec, Int64.toBitVec_abs, BitVec.toInt_abs_eq_natAbs,
    Int64.toInt_toBitVec, Int.natCast_natAbs]
  simp only [hmin]
  rfl

/-! ## Evaluation in a root frame -/

/-- **Integer arithmetic is exact modulo `2 ^ 64`.** In a new root frame every one of these
expressions has an answer, the only one, and leaves the store alone. That of a term of any depth is
the integer in range that is congruent to its exact value. That of a quotient is the exact one
without its fraction, but for the lowest integer divided by `-1`, which is itself; to divide by zero
is an error, and the only one. That of an absolute value is the exact one, but for the lowest
integer, which is itself. -/
theorem arithmetic_modulo (s : Store) :
    (∀ t : RingTerm, ∃ n : Int64, -2 ^ 63 ≤ n.toInt ∧ n.toInt < 2 ^ 63 ∧
      n.toInt ≡ t.exact [ZMOD 2 ^ 64] ∧
      ∀ answer s', Ends (fun depth => eval depth t.expression s.next) s.pushRoot answer s' ↔
        answer = .ok (some (.integer n)) ∧ s' = s.pushRoot) ∧
    (∀ a b : Int64, ∃ q : Int64,
      (q.toInt = if a.toInt = -2 ^ 63 ∧ b.toInt = -1 then -2 ^ 63 else a.toInt.tdiv b.toInt) ∧
      ∀ answer s', Ends (fun depth => eval depth
          (.list [.symbol "/", .integer a, .integer b]) s.next) s.pushRoot answer s' ↔
        answer = (if b.toInt = 0 then .error .divisionByZero else .ok (some (.integer q))) ∧
          s' = s.pushRoot) ∧
    ∀ a : Int64, ∃ n : Int64,
      (n.toInt = if a.toInt = -2 ^ 63 then -2 ^ 63 else |a.toInt|) ∧
      ∀ answer s', Ends (fun depth => eval depth
          (.list [.symbol "abs", .integer a]) s.next) s.pushRoot answer s' ↔
        answer = .ok (some (.integer n)) ∧ s' = s.pushRoot := by
  have hvalue (n : Int64) := hasValue_integer n s.next s.pushRoot
  refine ⟨fun t => ?_, fun a b => ⟨a / b, toInt_quotient a b, fun answer s' => ?_⟩,
    fun a => ⟨a.abs, toInt_abs a, fun answer s' => ?_⟩⟩
  · have ht : HasValue s.next t.expression s.pushRoot _ s.pushRoot :=
      t.hasValue fun op => get?_pushRoot s op.operation
    exact ⟨_, Int64.le_toInt _, Int64.toInt_lt _, toInt_ofInt_modEq t.exact,
      fun answer s' => Ends.iff (eval_stable t.expression s.next) ht⟩
  · have hrun : some <$> (Operation.binary (.arithmetic .div)).run [.integer a, .integer b] =
        if b.toInt = 0 then .error .divisionByZero else .ok (some (.integer (a / b))) := by
      have hzero : b.toInt = 0 ↔ b = 0 := by rw [← Int64.toInt_zero, Int64.toInt_inj]
      show some <$> Value.integer <$> (if b = 0 then _ else _) = _
      simp only [hzero]
      split <;> rfl
    rw [← hrun]
    exact ends_operation_iff (get?_pushRoot s (.binary (.arithmetic .div)))
      (.cons (hvalue a) (.cons (hvalue b) .nil))
  · exact ends_operation_iff (get?_pushRoot s (.unary .abs)) (.cons (hvalue a) .nil)

end ScopedLisp
