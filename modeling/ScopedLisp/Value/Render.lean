import ScopedLisp.Decimal.Fixed
import ScopedLisp.Value.Basic

/-!
# The text of a value

What the program prints for a value. Numbers, names and lists have the form in which the reader
takes them; procedures have no readable form and are shown in `#<…>`.
-/

namespace ScopedLisp.Value

/-- Floats are printed with this many decimals. -/
def floatPlaces : Nat := 6

mutual

/-- The printed text of a value. -/
def render : Value → String
  | integer n => toString n.toInt
  | float x => Decimal.fixed floatPlaces x
  | symbol name => name
  | special form => form.name
  | list items => "(" ++ " ".intercalate (renderAll items) ++ ")"
  | primitive p _ => "#<builtin " ++ p.name ++ ">"
  | closure _ params _ _ => "#<lambda (" ++ " ".intercalate params ++ ")>"

/-- The printed texts of the items of a list. -/
def renderAll : List Value → List String
  | [] => []
  | v :: rest => render v :: renderAll rest

end

theorem renderAll_eq_map (items : List Value) : renderAll items = items.map render := by
  induction items with
  | nil => simp [renderAll]
  | cons v rest ih => simp [renderAll, ih]

end ScopedLisp.Value
