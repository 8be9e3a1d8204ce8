import ScopedLisp.Proofs.Account
import ScopedLisp.Proofs.Sequence

/-!
# The log of a session

Which closure is which is told by a number alone, and the number is nothing but a count: the text
of the form, the frame and what the closure is bound to do not enter. So what a number stands for
has to be known from the history of the session.

The log of a session has all evaluations that have taken place in it, of all its texts. It is an
account (`History.account`): every procedure that is seen anywhere in the session is a closure that
was made by one of these evaluations, or one that the session began with.
-/

namespace ScopedLisp

open Eval

namespace Reader

/-- What is read holds no procedures. -/
theorem not_isProcedure_of_readText {source : String} {expr x : Value}
    (h : readText source = .ok expr) (hx : Value.Occurs x expr) : x.isProcedure = false :=
  all_of_spelled (readText_eq_ok_iff.mp h) (fun _ => rfl)
    (fun _ _ _ hatom => isProcedure_of_atom hatom) x hx

end Reader

namespace Session

/-- The sessions that nothing has been done in. -/
inductive New : Session → Prop
  | start : New start
  | bare : New bare

/-- The evaluations that take place when the session is given a text. -/
def visits (depth : Nat) (s : Session) (source : String) : List Visit :=
  match Reader.readText source with
  | .ok expr => Eval.visits depth expr s.global s.store
  | .error _ => []

/-- What has become of `s₀` by texts, whether they failed or not, and all the evaluations on the
way. -/
inductive History (s₀ : Session) : List Visit → Session → Prop
  | new : History s₀ [] s₀
  | text {log : List Visit} {s : Session} (h : History s₀ log s) (depth : Nat) (source : String) :
      History s₀ (log ++ s.visits depth source) (s.run depth source).2

/-- The value occurs in one that an evaluation of the session holds, or that is bound now. -/
def Seen (log : List Visit) (s : Session) (x : Value) : Prop :=
  ∃ v, Value.Occurs x v ∧
    ((∃ visit ∈ log, visit.Holds v) ∨ ∃ f name, s.store.binding? f name = some v)

variable {P : Value → Prop} {s₀ s : Session} {log : List Visit}

theorem account_text (depth : Nat) (s : Session) (source : String) :
    Account P s.store (s.visits depth source) (s.run depth source).2.store := by
  cases hread : Reader.readText source with
  | error e =>
    have hrun : s.run depth source = (.error (.error (.unreadable e)), s) := by
      rw [run, evalText, Eval.read, hread]
      rfl
    rw [visits, hread, hrun]
    exact account_nil id rfl
  | ok expr =>
    have hexpr : expr.EveryProcedure P := fun x hx hprocedure => by
      rw [Reader.not_isProcedure_of_readText hread hx] at hprocedure
      cases hprocedure
    have hrun : (s.run depth source).2.store = left (eval depth expr s.global s.store) := by
      have htext : evalText depth source s.global s.store =
          eval depth expr s.global s.store := by
        rw [evalText, Eval.read, hread]
        rfl
      rw [run, htext]
      cases eval depth expr s.global s.store <;> rfl
    rw [visits, hread, hrun]
    exact (recorded_eval depth expr s.global s.store hexpr).account

/-- The log has evaluations only. -/
theorem History.outcome_of_mem (h : History s₀ log s) :
    ∀ visit ∈ log, ∃ depth, visit.outcome = eval depth visit.expr visit.frame visit.before := by
  induction h with
  | new => exact nofun
  | @text log s _ depth source ih =>
    refine List.forall_mem_append.mpr ⟨ih, ?_⟩
    unfold visits
    cases Reader.readText source with
    | error => exact nofun
    | ok expr => exact outcome_of_mem_visits depth expr s.global s.store

/-- **The log is an account of the session.** -/
theorem History.account (h : History s₀ log s) : Account P s₀.store log s.store := by
  induction h with
  | new => exact account_nil id rfl
  | text _ depth source ih => exact ih.append fun _ _ => account_text depth _ source

/-- What holds of the procedures that a session began with, and of the closures made in it, holds
of every procedure that is seen in it. -/
theorem History.everyProcedure (h : History s₀ log s) (hs₀ : s₀.store.EveryProcedure P)
    (hmade : ∀ x ∈ made log, P x) {x : Value} (hx : Seen log s x) : x.EveryProcedure P := by
  have hclosed := h.account.closed hs₀ hmade
  intro y hy
  obtain ⟨v, hoccurs, ⟨visit, hvisit, hv⟩ | ⟨f, name, hv⟩⟩ := hx
  · exact hclosed.visits visit hvisit v hv y (hy.trans hoccurs)
  · exact hclosed.bound f name v hv y (hy.trans hoccurs)

/-- The closures of a session have the numbers in order. -/
theorem History.numbered (h : History s₀ log s) : Numbered s₀.store (made log) s.store :=
  (h.account.closed (P := fun _ => True) (fun _ _ _ _ _ _ _ => trivial) fun _ _ => trivial).numbered

end Session

end ScopedLisp
