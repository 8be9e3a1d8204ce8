import ScopedLisp.Proofs.Numerals
import ScopedLisp.Proofs.Spacing

/-!
# Reading undoes rendering

The printed text of a tree reads as the tree again, however the blanks in it are changed. Two
things limit this. Printing rounds a float to six decimals, so a float reads as what is left of it.
And a name must be one word: a name with a blank or a parenthesis in it, which no text but a host
can make, is printed as it is and falls apart when it is read.
-/

namespace ScopedLisp.Value

/-- A tree without procedures, all of whose floats are finite and all of whose names are words
that are no numerals and not reserved. -/
inductive Readable : Value → Prop
  | integer (n : Int64) : Readable (.integer n)
  | float {x : Float} {negative : Bool} {mantissa : Nat} {exponent : Int}
      (hx : Decimal.Binary64.ofFloat x = .finite negative mantissa exponent) : Readable (.float x)
  | symbol {name : String} (hatom : Reader.atom name = .ok (.symbol name))
      (hword : Token.IsWord name.toList) : Readable (.symbol name)
  | special (form : SpecialForm) : Readable (.special form)
  | list {items : List Value} (h : ∀ v ∈ items, Readable v) : Readable (.list items)

/-- Trees of the same shape that are equal but for their floats. -/
inductive Alike : Value → Value → Prop
  | same (v : Value) : Alike v v
  | float (x y : Float) : Alike (.float x) (.float y)
  | list {as bs : List Value} (h : List.Forall₂ Alike as bs) : Alike (.list as) (.list bs)

/-- What is left of a float when it is printed: the float nearest to its decimals. -/
def roundedFloat (x : Float) : Float :=
  match Decimal.Binary64.ofFloat x with
  | .finite negative mantissa exponent =>
    Decimal.Numeral.toFloat
      ⟨negative, Decimal.inUnits floatPlaces mantissa exponent, -floatPlaces⟩
  | _ => x

mutual

/-- The tree with every float rounded to the decimals it is printed with. -/
def rounded : Value → Value
  | float x => float (roundedFloat x)
  | list items => list (roundedAll items)
  | v => v

def roundedAll : List Value → List Value
  | [] => []
  | v :: rest => rounded v :: roundedAll rest

end

theorem roundedAll_eq_map (items : List Value) : roundedAll items = items.map rounded := by
  induction items with
  | nil => simp [roundedAll]
  | cons v rest ih => simp [roundedAll, ih]

/-- Rounding changes nothing but floats. -/
theorem alike_rounded (v : Value) : v.Alike v.rounded := by
  induction v using treeInduction with
  | integer | symbol | special | primitive | closure => exact .same _
  | float x => exact .float x _
  | list items ih =>
    rw [rounded, roundedAll_eq_map]
    exact .list (List.forall₂_map_right_iff.mpr (List.forall₂_same.mpr ih))

theorem rounded_eq_self {v : Value} (h : ∀ x, ¬ Occurs (.float x) v) : v.rounded = v := by
  induction v using treeInduction with
  | integer | symbol | special | primitive | closure => rfl
  | float x => exact absurd .self (h x)
  | list items ih =>
    rw [rounded, roundedAll_eq_map]
    have hitems : items.map rounded = items.map id :=
      List.map_congr_left fun v hv => ih v hv fun x hx => h x (.item hv hx)
    rw [hitems, List.map_id]

theorem atom_formName (form : SpecialForm) :
    Reader.atom form.name = .ok (.special form) ∧
      Token.IsWord form.name.toList := by
  cases form <;> exact ⟨rfl, by decide⟩

theorem Readable.readText_render {v : Value} (hv : v.Readable) :
    Reader.readText v.render = .ok v.rounded := by
  -- a leaf is one word; a list is the texts of its items, joined
  induction hv with
  | integer n =>
    exact Reader.readText_word (fun c hc => Reader.isDelimiter_of_mem_toString hc)
      (Reader.atom_toString n)
  | @float x negative mantissa exponent hx =>
    have hatom := Reader.atom_fixed hx (by decide : 0 < floatPlaces)
    rw [render, rounded, roundedFloat, hx]
    exact Reader.readText_word (fun c hc => Reader.isDelimiter_of_mem_fixed hx hc) hatom
  | symbol hatom hword => exact Reader.readText_word hword hatom
  | special form =>
    exact Reader.readText_word (atom_formName form).2 (atom_formName form).1
  | @list items _ ih =>
    rw [render, renderAll_eq_map, rounded, roundedAll_eq_map]
    refine Reader.readText_list ?_
    rw [List.forall₂_map_left_iff, List.forall₂_map_right_iff]
    exact List.forall₂_same.mpr ih

/-- **Reading undoes rendering.** With any other blanks the printed text of a tree still reads as
the tree with its floats rounded, which is the tree itself if it has none. -/
theorem readText_respaced_render {v : Value} (hv : v.Readable) :
    (∀ variant, Respaced v.render variant → Reader.readText variant = .ok v.rounded) ∧
      v.Alike v.rounded ∧ ((∀ x, ¬ Occurs (.float x) v) → v.rounded = v) :=
  ⟨fun _ h => (Reader.readText_respaced h).trans hv.readText_render, alike_rounded v,
    rounded_eq_self⟩

/-- A tree with a float, an empty list and a negative number, with blanks of three kinds. -/
theorem readText_respaced_tree :
    let tree := list [float (.ofBits 0x3ff8000000000000), symbol "a", list [], integer (-5)]
    tree.Readable ∧ Respaced tree.render " ( 1.500000\n\ta ( ) -5)" ∧
      Reader.readText " ( 1.500000\n\ta ( ) -5)" = .ok tree.rounded := by
  intro tree
  have hreadable : tree.Readable := by
    refine .list fun v hv => ?_
    obtain rfl | rfl | rfl | rfl : v = float (.ofBits 0x3ff8000000000000) ∨ v = symbol "a" ∨
      v = list [] ∨ v = integer (-5) := by simpa using hv
    · exact @Readable.float _ false 0x18000000000000 (-52) rfl
    · exact .symbol rfl (by decide)
    · exact .list (by simp)
    · exact .integer (-5)
  have hrespaced : Respaced tree.render " ( 1.500000\n\ta ( ) -5)" := by
    refine ⟨[' '], "( 1.500000\n\ta ( ) -5)".toList, [], by decide, by decide, ?_, rfl⟩
    have htext : tree.render = "(1.500000 a () -5)" := rfl
    have hrender : "(1.500000 a () -5)".toList =
        ['(', '1', '.', '5', '0', '0', '0', '0', '0', ' ', 'a', ' ', '(', ')', ' ', '-', '5', ')'] :=
      rfl
    have hbody : "( 1.500000\n\ta ( ) -5)".toList =
        ['(', ' ', '1', '.', '5', '0', '0', '0', '0', '0', '\n', '\t', 'a', ' ', '(', ' ', ')', ' ',
          '-', '5', ')'] := rfl
    rw [htext, hrender, hbody]
    refine @RespacedWithin.paren _ [] [' '] _ _ (.inl rfl) (by decide) (by decide) ?_
    iterate 8 refine .char ?_
    refine @RespacedWithin.space ['\n', '\t'] _ _ (by decide) (by decide) (.char (.char ?_))
    refine @RespacedWithin.paren _ [] [' '] _ _ (.inl rfl) (by decide) (by decide) ?_
    exact .refl _
  exact ⟨hreadable, hrespaced, (readText_respaced_render hreadable).1 _ hrespaced⟩

/-- A name of two words is an atom by itself, but its text is two atoms. -/
theorem readText_render_two_words :
    Reader.atom "a b" = .ok (.symbol "a b") ∧
      Reader.readText (symbol "a b").render = .error (.trailing "b") := by
  refine ⟨rfl, ?_⟩
  have htokens : tokens (symbol "a b").render = [.atom "a", .atom "b"] := by
    rw [tokens_eq_lexFrom]
    decide
  rw [Reader.readText, htokens]
  rfl

end ScopedLisp.Value
