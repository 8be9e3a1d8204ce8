import ScopedLisp.Text.Blank

/-!
# Comments between lines of code

Comments are a matter of whole lines. A line is judged by what it starts with, blanks apart:
`#|` opens a block, `|#` closes one, and `;` makes it a remark, as nothing at all does. Blocks
nest, and inside one every line is skipped. Outside of blocks a closing line is code like any
other, so the number of open blocks never falls below zero.
-/

namespace ScopedLisp.Comment

open Text

/-- What a line is judged to be by its start. -/
inductive Kind where
  | opening
  | closing
  | remark
  | code
deriving DecidableEq, Repr

def kind (line : List Char) : Kind :=
  match trim line with
  | '#' :: '|' :: _ => .opening
  | '|' :: '#' :: _ => .closing
  | [] => .remark
  | ';' :: _ => .remark
  | _ => .code

/-- Whether a line is skipped while `blocks` blocks are open, and how many are open after it. -/
def skip (blocks : Nat) (line : List Char) : Bool × Nat :=
  match kind line, blocks with
  | .opening, n => (true, n + 1)
  | .closing, n + 1 => (true, n)
  | _, n + 1 => (true, n + 1)
  | .remark, 0 => (true, 0)
  | _, 0 => (false, 0)

end ScopedLisp.Comment
