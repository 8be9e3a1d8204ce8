import ScopedLisp.Scanner.Basic
import ScopedLisp.Text.Blank

/-!
# Scanning text

What a scanner over characters offers beyond the general operations.
-/

namespace ScopedLisp.Scanner

open Text

/-- The view as text, and the scanner after dropping it. -/
def extractText (s : Scanner Char) : String × Scanner Char :=
  (String.ofList s.view, s.ignore)

/-- Takes the next character if it is one of `set`. -/
def acceptAny (set : List Char) (s : Scanner Char) : Option Char × Scanner Char :=
  s.acceptIf (set.contains ·)

/-- Takes the blanks ahead; whether there was one. -/
def skipBlanks (s : Scanner Char) : Bool × Scanner Char :=
  s.skipWhile isBlank

/-- Passes the blanks ahead and starts a new view behind them. -/
def ignoreBlanks (s : Scanner Char) : Scanner Char :=
  s.skipBlanks.2.ignore

theorem ahead_ignoreBlanks_le (s : Scanner Char) :
    s.ignoreBlanks.ahead.length ≤ s.ahead.length := by
  simpa [ignoreBlanks, skipBlanks] using ahead_skipWhile_le isBlank s

end ScopedLisp.Scanner
