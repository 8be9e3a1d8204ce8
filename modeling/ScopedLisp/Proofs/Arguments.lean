import ScopedLisp.CommandLine
import ScopedLisp.Proofs.Classification
import ScopedLisp.Proofs.Depth
import ScopedLisp.Proofs.Spacing

/-!
# Expressions among the arguments

A shell takes a line apart at blanks before the program gets to see it, so an expression may come as
any number of arguments, cut anywhere between two tokens, with flags and empty arguments among them.
The program puts the pieces together with spaces, which neither joins two tokens nor cuts one. All
that it does is therefore decided by the tokens of its arguments in a row: these spell an expression,
or the reader refuses them for a reason that is theirs alone.
-/

namespace ScopedLisp

/-- How an evaluation ended, without the store that it left. -/
def Eval.answered {α : Type} : Eval.Outcome α → Except Stop α
  | .ok a _ => .ok a
  | .error stop _ => .error stop

namespace Reader

/-- Why tokens spell no expression: they start with a closing parenthesis, or open more lists than
they close, or go on behind the place where an expression ends. -/
inductive Refused (tokens : List Token) : ReadError → Prop
  | closing (h : tokens.head? = some .closing) : Refused tokens .unexpectedClosing
  | unfinished (hopen : tokens.head? ≠ some .closing) (h : ∀ k, ¬ FirstBalanced 0 tokens k) :
      Refused tokens .unexpectedEnd
  | trailing {k : Nat} {token : Token} (hopen : tokens.head? ≠ some .closing)
      (hk : FirstBalanced 0 tokens k) (hnext : tokens[k]? = some token) :
      Refused tokens (.trailing token.text)

theorem readText_eq_error_iff {source : String} {e : ReadError} :
    readText source = .error e ↔ Refused (tokens source) e := by
  constructor
  · intro h
    have hopen (hne : e ≠ .unexpectedClosing) : (tokens source).head? ≠ some .closing := by
      intro hclosing
      have hread := readText_eq_unexpectedClosing_iff.mpr hclosing
      exact hne (Except.error.inj (h.symm.trans hread))
    rcases readText_cases source with
      ⟨v, hread, -⟩ | ⟨k, token, hread, hk, hnext⟩ | ⟨hread, hnone⟩ | ⟨hread, hclosing⟩
    · cases h.symm.trans hread
    · cases h.symm.trans hread
      exact .trailing (hopen nofun) hk hnext
    · cases h.symm.trans hread
      exact .unfinished (hopen nofun) hnone
    · cases h.symm.trans hread
      exact .closing hclosing
  · intro h
    cases h with
    | closing h => exact readText_eq_unexpectedClosing_iff.mpr h
    | unfinished hopen h => exact (readText_eq_unexpectedEnd_iff hopen).mpr fun ⟨k, hk⟩ => h k hk
    | @trailing k token hopen hk hnext =>
      have hlt : k < (tokens source).length := (List.getElem?_eq_some_iff.mp hnext).1
      rcases readText_of_firstBalanced hopen hk with ⟨v, -, hlength⟩ | ⟨other, hread, hother⟩
      · exact absurd hlength (Nat.ne_of_lt hlt)
      · cases hnext.symm.trans hother
        exact hread

end Reader

theorem Session.fst_run (depth : Nat) (s : Session) (source : String) :
    (s.run depth source).1 = Eval.answered (evalText depth source s.global s.store) := by
  unfold run
  cases evalText depth source s.global s.store <;> rfl

namespace CommandLine

/-- The arguments that are no flags. -/
def expressions (args : List String) : List String := args.filter (!isFlag ·)

/-- What the program leaves when an evaluation has ended like this. -/
def reported : Except Stop (Option Value) → Report
  | .ok result => ⟨0, Shell.printed result, none⟩
  | .error stop => ⟨1, "", some ("Error: " ++ Text.quoted stop.message)⟩

/-- How the evaluation of an expression ends in a new session. -/
def evaluated (expr : Value) : Except Stop (Option Value) :=
  Eval.answered (eval depthLimit expr Session.start.global Session.start.store)

variable {args : List String} {input source : String}

theorem evaluate_eq_reported (source : String) :
    evaluate source = reported (Session.start.run depthLimit source).1 := by
  rw [evaluate]
  cases (Session.start.run depthLimit source).1 <;> rfl

theorem evaluate_of_ok {expr : Value} (h : Reader.readText source = .ok expr) :
    evaluate source = reported (evaluated expr) := by
  rw [evaluate_eq_reported, Session.fst_run, evalText, Eval.read, h]
  rfl

theorem evaluate_of_error {e : ReadError} (h : Reader.readText source = .error e) :
    evaluate source = reported (.error (.error (.unreadable e))) := by
  rw [evaluate_eq_reported, Session.fst_run, evalText, Eval.read, h]
  rfl

/-- With expressions among the arguments the program evaluates one text, which has their tokens, and
its input does not count. -/
theorem run_of_expressions (h : expressions args ≠ []) (input : String) :
    ∃ source, tokens source = (expressions args).flatMap tokens ∧
      run args input = evaluate source := by
  refine ⟨" ".intercalate (expressions args), tokens_intercalate _, ?_⟩
  have hsource : expression? args = some (" ".intercalate (expressions args)) := by
    unfold expressions at h ⊢
    unfold expression?
    split
    · next hnil => exact absurd hnil h
    · rfl
  rw [run, hsource]

/-- **How expressions are split into arguments does not matter.** The tokens of the arguments that
are no flags decide the whole report: two lists with the same tokens leave the same, whatever flags
are among them and whatever the input is. It is the report on the one expression that the tokens
spell, evaluated in a new session, or, where they spell none, on the reason for that, which is a
matter of the tokens as well. -/
theorem run_splits (h : expressions args ≠ []) (input : String) :
    let spelled := (expressions args).flatMap tokens
    (∀ args' input', expressions args' ≠ [] → (expressions args').flatMap tokens = spelled →
      run args' input' = run args input) ∧
    (∀ expr : Value, Spelled spelled expr.pieces → run args input = reported (evaluated expr)) ∧
    (∀ e, Reader.Refused spelled e →
      run args input = reported (.error (.error (.unreadable e)))) ∧
    ((∃! expr : Value, Spelled spelled expr.pieces) ∨ ∃! e, Reader.Refused spelled e) := by
  intro spelled
  obtain ⟨source, htokens, hrun⟩ := run_of_expressions h input
  have hspelled {expr : Value} :
      Spelled spelled expr.pieces ↔ Reader.readText source = .ok expr := by
    rw [Reader.readText_eq_ok_iff, htokens]
  have hrefused {e : ReadError} : Reader.Refused spelled e ↔ Reader.readText source = .error e := by
    rw [Reader.readText_eq_error_iff, htokens]
  refine ⟨fun args' input' hne' hsame => ?_, fun expr hexpr => ?_, fun e he => ?_, ?_⟩
  · obtain ⟨source', htokens', hrun'⟩ := run_of_expressions hne' input'
    have hread : Reader.readText source' = Reader.readText source := by
      rw [Reader.readText, Reader.readText, htokens', htokens, hsame]
    rw [hrun, hrun']
    cases hanswer : Reader.readText source with
    | ok expr => rw [evaluate_of_ok hanswer, evaluate_of_ok (hread.trans hanswer)]
    | error e => rw [evaluate_of_error hanswer, evaluate_of_error (hread.trans hanswer)]
  · rw [hrun, evaluate_of_ok (hspelled.mp hexpr)]
  · rw [hrun, evaluate_of_error (hrefused.mp he)]
  · simp only [hspelled, hrefused]
    cases Reader.readText source with
    | ok expr => exact .inl ⟨expr, rfl, fun other hother => (Except.ok.inj hother).symm⟩
    | error e => exact .inr ⟨e, rfl, fun other hother => (Except.error.inj hother).symm⟩

/-- Cut inside of a list, with a flag and an empty argument in between, and cut elsewhere: the
program quotes the same list. -/
theorem run_splits_quote :
    run ["(quote (a", "-v", "b", "))"] "" = ⟨0, "(a b)\n", none⟩ ∧
      run ["(quote", "", "(a b) )", "--verbose"] "x\n" = ⟨0, "(a b)\n", none⟩ := by
  let args := ["(quote (a", "-v", "b", "))"]
  let items : Value := .list [.symbol "a", .symbol "b"]
  have hsplit : (expressions args).flatMap tokens =
      [.opening, .atom "quote", .opening, .atom "a", .atom "b", .closing, .closing] := by
    rw [funext tokens_eq_lexFrom]
    decide
  have hother : (expressions ["(quote", "", "(a b) )", "--verbose"]).flatMap tokens =
      (expressions args).flatMap tokens := by
    rw [hsplit]
    rw [funext tokens_eq_lexFrom]
    decide
  have hspelled : Spelled ((expressions args).flatMap tokens)
      (Value.list [.special .quote, items]).pieces := by
    rw [hsplit]
    exact .cons .opening (.cons (.atom rfl) (.cons .opening (.cons (.atom rfl) (.cons (.atom rfl)
      (.cons .closing (.cons .closing .nil))))))
  have hevaluated : evaluated (.list [.special .quote, items]) = .ok (some items) := by
    have hends : eval 1 (.list [.special .quote, items]) Session.start.global Session.start.store =
      Eval.ended (.ok (some items)) Session.start.store := rfl
    have hlimit := eval_stable _ _ 1 depthLimit _ _ _ (by decide) hends
    exact congrArg Eval.answered hlimit
  have hne : expressions args ≠ [] := by decide
  obtain ⟨hsame, hreport, -⟩ := run_splits hne ""
  have hrun : run args "" = ⟨0, "(a b)\n", none⟩ := by
    rw [hreport _ hspelled, hevaluated]
    rfl
  exact ⟨hrun, (hsame _ "x\n" (by decide) hother).trans hrun⟩

end CommandLine

end ScopedLisp
