import ScopedLisp.Proofs.Grammar
import ScopedLisp.Proofs.Tokens

/-!
# Blanks between tokens

How texts are put together without touching their tokens. Texts may be joined by spaces and put
between parentheses; a space may be any other blanks instead, and blanks may stand next to
parentheses and at both ends of a text.

All of it is `Token.lexFrom_append` read off at a blank or at a parenthesis. What it is for stands
at the end: a text reads the same with other blanks, and the texts of expressions, put together as
the text of a list, read as the list of those expressions.
-/

namespace ScopedLisp

open Text

namespace Token

theorem lexFrom_append_blanks {blanks : List Char} (h : AllBlank blanks)
    (begun a : List Char) : lexFrom begun (a ++ blanks) = lexFrom begun a := by
  cases blanks with
  | nil => rw [List.append_nil]
  | cons c blanks =>
    have hc : isBlank c = true := h c (by simp)
    have hrest := lexFrom_blanks (fun d hd => h d (List.mem_cons_of_mem c hd)) []
    rw [lexFrom_append (isDelimiter_of_isBlank hc), ofDelimiter_of_isBlank hc,
      ← List.append_nil blanks, hrest]
    simp

end Token

/-! ## Texts put together -/

theorem tokens_empty : tokens "" = [] := by
  rw [tokens_eq_lexFrom]
  rfl

/-- Texts with blanks between them keep their tokens. -/
theorem tokens_separated {blanks : String} (hne : blanks ≠ "")
    (h : Token.AllBlank blanks.toList) (a b : String) :
    tokens (a ++ blanks ++ b) = tokens a ++ tokens b := by
  cases hblanks : blanks.toList with
  | nil => exact absurd (String.toList_eq_nil_iff.mp hblanks) hne
  | cons c rest =>
    rw [hblanks] at h
    have hc : isBlank c = true := h c List.mem_cons_self
    have hjoin : (a ++ blanks ++ b).toList = a.toList ++ c :: (rest ++ b.toList) := by
      simp [hblanks]
    rw [tokens_eq_lexFrom, hjoin, Token.lexFrom_append (Token.isDelimiter_of_isBlank hc),
      Token.ofDelimiter_of_isBlank hc,
      Token.lexFrom_blanks (fun d hd => h d (List.mem_cons_of_mem c hd)), List.append_nil,
      ← tokens_eq_lexFrom, ← tokens_eq_lexFrom]

/-- Texts that are joined by spaces keep their tokens. -/
theorem tokens_intercalate (texts : List String) :
    tokens (" ".intercalate texts) = texts.flatMap tokens := by
  induction texts with
  | nil => exact tokens_empty
  | cons text texts ih =>
    cases texts with
    | nil => simp
    | cons other texts =>
      rw [String.intercalate_cons_cons, tokens_separated (by decide) (by decide), ih]
      rfl

theorem tokens_parenthesized (text : String) :
    tokens ("(" ++ text ++ ")") = .opening :: (tokens text ++ [.closing]) := by
  have htext : ("(" ++ text ++ ")").toList = '(' :: (text.toList ++ [')']) := by simp
  rw [tokens_eq_lexFrom, htext, Token.lexFrom_opening,
    Token.lexFrom_append Token.isDelimiter_closing, ← tokens_eq_lexFrom]
  simp [Token.ofDelimiter]

/-! ## Other blanks -/

/-- The second row of characters is the first with other blanks: a space may have become any
blanks, at least one, and a parenthesis may have got blanks on both sides. -/
inductive RespacedWithin : List Char → List Char → Prop
  | nil : RespacedWithin [] []
  | char {c : Char} {a b : List Char} (h : RespacedWithin a b) : RespacedWithin (c :: a) (c :: b)
  | space {blanks a b : List Char} (hne : blanks ≠ []) (hblanks : Token.AllBlank blanks)
      (h : RespacedWithin a b) : RespacedWithin (' ' :: a) (blanks ++ b)
  | paren {c : Char} {before after a b : List Char} (hc : c = '(' ∨ c = ')')
      (hbefore : Token.AllBlank before) (hafter : Token.AllBlank after)
      (h : RespacedWithin a b) : RespacedWithin (c :: a) (before ++ c :: (after ++ b))

/-- The second text is the first with other blanks, also at its ends. -/
def Respaced (text variant : String) : Prop :=
  ∃ lead body trail, Token.AllBlank lead ∧ Token.AllBlank trail ∧
    RespacedWithin text.toList body ∧ variant.toList = lead ++ (body ++ trail)

theorem RespacedWithin.refl (a : List Char) : RespacedWithin a a := by
  induction a with
  | nil => exact .nil
  | cons c a ih => exact .char ih

theorem Respaced.refl (text : String) : Respaced text text :=
  ⟨[], text.toList, [], Token.allBlank_nil, Token.allBlank_nil, .refl _, by simp⟩

theorem RespacedWithin.lexFrom_eq {a b : List Char} (h : RespacedWithin a b) (begun : List Char) :
    Token.lexFrom begun b = Token.lexFrom begun a := by
  induction h generalizing begun with
  | nil => rfl
  | char _ ih => simp only [Token.lexFrom, ih]
  | space hne hblanks _ ih =>
    rw [Token.lexFrom_separated hne hblanks, Token.lexFrom_delimiter (by decide), ih]
    simp [Token.ofDelimiter]
  | @paren c before after a b hc hbefore hafter _ ih =>
    have hdelimiter : Token.isDelimiter c = true := by rcases hc with rfl | rfl <;> decide
    have hflush : Token.lexFrom begun before = Token.flush begun :=
      Token.lexFrom_append_blanks hbefore begun []
    rw [Token.lexFrom_append hdelimiter, hflush, Token.lexFrom_blanks hafter, ih,
      Token.lexFrom_delimiter hdelimiter]

theorem Respaced.tokens_eq {text variant : String} (h : Respaced text variant) :
    tokens variant = tokens text := by
  obtain ⟨lead, body, trail, hlead, htrail, hbody, hvariant⟩ := h
  rw [tokens_eq_lexFrom, tokens_eq_lexFrom, hvariant, Token.lexFrom_blanks hlead,
    Token.lexFrom_append_blanks htrail, hbody.lexFrom_eq]

namespace Reader

/-- What a text reads as depends on its tokens alone. -/
theorem readText_respaced {text variant : String} (h : Respaced text variant) :
    readText variant = readText text := by
  rw [readText, readText, h.tokens_eq]

/-- A text without delimiters is one atom. -/
theorem readText_word {text : String} (hword : Token.IsWord text.toList)
    {v : Value} (h : atom text = .ok v) : readText text = .ok v := by
  have hne : text.toList ≠ [] := by
    intro hnil
    obtain rfl := String.toList_eq_nil_iff.mp hnil
    exact absurd (atom_empty.symm.trans h) nofun
  have htokens : tokens text = [.atom text] := by
    have hlex := Token.lexFrom_word hword [] []
    rw [List.append_nil, List.append_nil] at hlex
    rw [tokens_eq_lexFrom, hlex]
    simp [Token.flush, hne]
  rw [readText_eq_ok_iff, htokens, pieces_of_atom h]
  exact .cons (.atom h) .nil

/-- Texts of expressions, joined by spaces between parentheses, are the text of their list. -/
theorem readText_list {texts : List String} {items : List Value}
    (h : List.Forall₂ (fun text v => readText text = .ok v) texts items) :
    readText ("(" ++ " ".intercalate texts ++ ")") = .ok (.list items) := by
  have hspelled : List.Forall₂ (fun text v => Spelled (tokens text) v.pieces) texts items :=
    h.imp fun _ _ => readText_eq_ok_iff.mp
  rw [readText_eq_ok_iff, tokens_parenthesized, tokens_intercalate, Value.pieces]
  refine .cons .opening (spelled_append_iff.mpr ⟨_, _, rfl, spelled_flatMap hspelled, ?_⟩)
  exact .cons .closing .nil

end Reader

end ScopedLisp
