/-!
# Blank characters

`isBlank` is the Unicode property White_Space. It is what separates one atom from the next in
source text, and what is cut off both ends of a line before the comment rules look at it.
Core's `Char.isWhitespace` knows six ASCII characters only; the property has twenty-five.
-/

namespace ScopedLisp.Text

/-- The Unicode property White_Space. -/
def isBlank (c : Char) : Bool :=
  let n := c.toNat
  (0x09 ≤ n && n ≤ 0x0d) || n == 0x20 || n == 0x85 || n == 0xa0 || n == 0x1680 ||
    (0x2000 ≤ n && n ≤ 0x200a) || n == 0x2028 || n == 0x2029 || n == 0x202f || n == 0x205f ||
    n == 0x3000

/-- `line` without the blanks at its two ends. -/
def trim (line : List Char) : List Char :=
  ((line.dropWhile isBlank).reverse.dropWhile isBlank).reverse

/-- Core's class is part of the property. -/
theorem isBlank_of_isWhitespace {c : Char} (h : c.isWhitespace = true) : isBlank c = true := by
  simp only [Char.isWhitespace, Bool.or_eq_true, decide_eq_true_eq] at h
  rcases h with (((h | h) | h) | h) <;> subst h <;> decide

/-- A parenthesis is no blank, so it always ends an atom in its own right. -/
theorem isBlank_paren : isBlank '(' = false ∧ isBlank ')' = false := by decide

end ScopedLisp.Text
