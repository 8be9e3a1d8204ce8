import ScopedLisp.Decimal.Numeral
import ScopedLisp.Text.Quoted
import ScopedLisp.Token
import ScopedLisp.Value.Basic

/-!
# The reader

One expression is a single atom, or an opening parenthesis, expressions, and the closing
parenthesis that matches it. `readFrom` takes one expression off the front of a row of tokens and
answers with what is left, also when it fails: whoever reads a stream of expressions goes on from
there.

The reader is one pass over the tokens with a stack of the lists that are still open, innermost
first, each with its items in reverse. An expression is complete when it is read while no list is
open.
-/

namespace ScopedLisp

open Text

/-- Why a text is no expression. -/
inductive ReadError where
  | unexpectedClosing
  | unexpectedEnd
  /-- One expression was read, and `text` is the token after it. -/
  | trailing (text : String)
  | emptyAtom
deriving DecidableEq, Repr

def ReadError.message : ReadError → String
  | unexpectedClosing => "unexpected closing paren"
  | unexpectedEnd => "unexpected end of input"
  | trailing text => "trailing input starting at " ++ quoted text
  | emptyAtom => "unexpected empty token"

namespace Reader

/-- The integer of a numeral in the range of the language's integers. -/
def integer? (text : List Char) : Option Int64 :=
  match Decimal.integer? text with
  | some n =>
    if Int64.minValue.toInt ≤ n ∧ n ≤ Int64.maxValue.toInt then some (.ofInt n) else none
  | none => none

/-- What an atom stands for. An integer numeral out of range is read as a decimal numeral; what is
no numeral at all is a name. -/
def atom (text : String) : Except ReadError Value :=
  if text.isEmpty then throw .emptyAtom
  else match integer? text.toList with
    | some n => pure (.integer n)
    | none =>
      match Decimal.numeral? text.toList with
      | some numeral => pure (.float numeral.toFloat)
      | none => pure (.ofName text)

/-- Reads on with the lists in `unfinished` open: the expression or the error, and the tokens
not consumed. -/
def readWith (unfinished : List (List Value)) : List Token → Except ReadError Value × List Token
  | [] => (.error .unexpectedEnd, [])
  | .opening :: rest => readWith ([] :: unfinished) rest
  | .closing :: rest =>
    match unfinished with
    | [] => (.error .unexpectedClosing, rest)
    | [items] => (.ok (.list items.reverse), rest)
    | items :: outer :: others => readWith ((.list items.reverse :: outer) :: others) rest
  | .atom text :: rest =>
    match atom text, unfinished with
    | .error e, _ => (.error e, rest)
    | .ok v, [] => (.ok v, rest)
    | .ok v, items :: others => readWith ((v :: items) :: others) rest

/-- Takes one expression off the front of `tokens`. -/
def readFrom (tokens : List Token) : Except ReadError Value × List Token :=
  readWith [] tokens

/-- What a reading leaves is no longer than what it was given. -/
theorem length_readWith_le (unfinished : List (List Value)) (tokens : List Token) :
    (readWith unfinished tokens).2.length ≤ tokens.length := by
  fun_induction readWith unfinished tokens <;> simp only [List.length_cons, List.length_nil] <;>
    omega

/-- Every reading takes a token, unless there is none. -/
theorem length_readWith_lt (unfinished : List (List Value)) (token : Token) (rest : List Token) :
    (readWith unfinished (token :: rest)).2.length < (token :: rest).length := by
  cases token with
  | opening => exact Nat.lt_succ_of_le (length_readWith_le _ rest)
  | closing =>
    simp only [readWith]
    split
    · exact Nat.lt_succ_self _
    · exact Nat.lt_succ_self _
    · exact Nat.lt_succ_of_le (length_readWith_le _ rest)
  | atom text =>
    simp only [readWith]
    split
    · exact Nat.lt_succ_self _
    · exact Nat.lt_succ_self _
    · exact Nat.lt_succ_of_le (length_readWith_le _ rest)

/-- Expression after expression until no token is left, errors included, and then the answer at
the end. -/
def readStream (tokens : List Token) : List (Except ReadError Value) :=
  match tokens with
  | [] => [(readFrom []).1]
  | token :: rest =>
    let answer := readFrom (token :: rest)
    answer.1 :: readStream answer.2
termination_by tokens.length
decreasing_by exact length_readWith_lt [] token rest

/-- Reads a text that is one expression and nothing else. -/
def readText (source : String) : Except ReadError Value :=
  match readFrom (tokens source) with
  | (.ok v, []) => .ok v
  | (.ok _, token :: _) => .error (.trailing token.text)
  | (.error e, _) => .error e

end Reader

end ScopedLisp
