import ScopedLisp.Scanner.Text

/-!
# Tokens

Source text is a row of parentheses and atoms. A parenthesis is a token wherever it stands; an
atom is a longest run of characters that are neither parentheses nor blanks.
-/

namespace ScopedLisp

open Text

/-- A parenthesis or an atom. -/
inductive Token where
  | opening
  | closing
  | atom (text : String)
deriving DecidableEq, Repr

namespace Token

/-- A character that ends an atom. -/
def isDelimiter (c : Char) : Bool := isBlank c || c = '(' || c = ')'

/-- The token as it stands in source text. -/
def text : Token → String
  | opening => "("
  | closing => ")"
  | atom text => text

/-- Reads one token off a scanner; `none` when only blanks are ahead. -/
def next? (s : Scanner Char) : Option Token × Scanner Char :=
  match s.ignoreBlanks.acceptAny ['(', ')'] with
  | (some paren, t) => (some (if paren = '(' then opening else closing), t.ignore)
  | (none, t) =>
    match t.skipUntil isDelimiter with
    | (true, u) => (some (atom u.extractText.1), u.extractText.2)
    | (false, u) => (none, u)

/-- Every token read was ahead before. -/
theorem ahead_next?_lt {s : Scanner Char} {token : Token} (h : (next? s).1 = some token) :
    (next? s).2.ahead.length < s.ahead.length := by
  have hblank := s.ahead_ignoreBlanks_le
  rw [next?] at h ⊢
  split
  · next paren t haccept =>
    have hlt := Scanner.ahead_acceptIf_lt haccept
    rw [Scanner.ahead_ignore]
    omega
  · next t haccept =>
    have hle := Scanner.ahead_acceptIf_le haccept
    split
    · next u hrun =>
      have hlt : u.ahead.length < t.ahead.length := by
        simpa [hrun] using Scanner.ahead_skipUntil_lt (congrArg Prod.fst hrun)
      simp only [Scanner.extractText, Scanner.ahead_ignore]
      omega
    · next u hrun => simp [haccept, hrun] at h

/-- All tokens ahead of a scanner. -/
def collect (s : Scanner Char) : List Token :=
  if h : (next? s).1.isSome then (next? s).1.get h :: collect (next? s).2 else []
termination_by s.ahead.length
decreasing_by exact ahead_next?_lt (Option.some_get h).symm

theorem collect_eq (s : Scanner Char) :
    collect s = match (next? s).1 with
      | some token => token :: collect (next? s).2
      | none => [] := by
  rw [collect]
  cases (next? s).1 <;> simp

end Token

/-- The tokens of a source text. -/
def tokens (source : String) : List Token :=
  Token.collect (.ofList source.toList)

end ScopedLisp
