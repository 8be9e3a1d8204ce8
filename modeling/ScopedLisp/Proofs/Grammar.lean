import Mathlib.Data.List.Forall2
import ScopedLisp.Proofs.Values
import ScopedLisp.Reader

/-!
# The grammar of the reader

The reader inverts a flattening. `Value.pieces` writes a tree out as parentheses and leaves, and
`Token.Spells` says which piece a token stands for: an atom stands for the leaf that `atom` makes
of it. An expression is read from exactly those tokens that spell its pieces (`readWith_spelled`
one way, `readWith_ok` the other).

Both inductions run with lists already open, so the statements are about the whole stack of the
reader: what has been read before is `unfinishedPieces`, outermost list first.
-/

namespace ScopedLisp

/-- A tree, written out, is a row of parentheses and leaves. -/
inductive Piece where
  | opening
  | closing
  | leaf (v : Value)

mutual

/-- The tree written out. Whatever is no list is a leaf. -/
def Value.pieces : Value → List Piece
  | .list items => .opening :: (Value.piecesAll items ++ [.closing])
  | v => [.leaf v]

/-- The trees written out one after the other. -/
def Value.piecesAll : List Value → List Piece
  | [] => []
  | v :: rest => Value.pieces v ++ Value.piecesAll rest

end

/-- The piece that a token stands for. -/
inductive Token.Spells : Token → Piece → Prop
  | opening : Spells .opening .opening
  | closing : Spells .closing .closing
  | atom {text : String} {v : Value} (h : Reader.atom text = .ok v) : Spells (.atom text) (.leaf v)

/-- Tokens that stand for these pieces, one by one. -/
abbrev Spelled (tokens : List Token) (pieces : List Piece) : Prop :=
  List.Forall₂ Token.Spells tokens pieces

theorem spelled_append_iff {tokens : List Token} {first second : List Piece} :
    Spelled tokens (first ++ second) ↔
      ∃ a b, tokens = a ++ b ∧ Spelled a first ∧ Spelled b second := by
  constructor
  · intro h
    exact ⟨tokens.take first.length, tokens.drop first.length, by simp,
      List.forall₂_take_append tokens first second h,
      List.forall₂_drop_append tokens first second h⟩
  · rintro ⟨a, b, rfl, hfirst, hsecond⟩
    exact List.rel_append hfirst hsecond

theorem spelled_cons_iff {tokens : List Token} {piece : Piece} {pieces : List Piece} :
    Spelled tokens (piece :: pieces) ↔
      ∃ token rest, tokens = token :: rest ∧ token.Spells piece ∧ Spelled rest pieces := by
  constructor
  · intro h
    obtain ⟨token, rest, htoken, hrest, rfl⟩ := List.forall₂_cons_right_iff.mp h
    exact ⟨token, rest, rfl, htoken, hrest⟩
  · rintro ⟨token, rest, rfl, htoken, hrest⟩
    exact .cons htoken hrest

theorem spelled_singleton_iff {tokens : List Token} {piece : Piece} :
    Spelled tokens [piece] ↔ ∃ token, tokens = [token] ∧ token.Spells piece := by
  rw [spelled_cons_iff]
  constructor
  · rintro ⟨token, rest, rfl, htoken, hrest⟩
    obtain rfl := List.forall₂_nil_right_iff.mp hrest
    exact ⟨token, rfl, htoken⟩
  · rintro ⟨token, rfl, htoken⟩
    exact ⟨token, [], rfl, htoken, .nil⟩

theorem spelled_flatMap {α : Type} {f : α → List Token} {as : List α} {items : List Value}
    (h : List.Forall₂ (fun a v => Spelled (f a) v.pieces) as items) :
    Spelled (as.flatMap f) (Value.piecesAll items) := by
  induction h with
  | nil => exact .nil
  | cons hfirst _ ih => exact spelled_append_iff.mpr ⟨_, _, rfl, hfirst, ih⟩

theorem Value.piecesAll_append (as bs : List Value) :
    Value.piecesAll (as ++ bs) = Value.piecesAll as ++ Value.piecesAll bs := by
  induction as with
  | nil => rfl
  | cons a as ih => simp [Value.piecesAll, ih]

theorem Value.piecesAll_concat (items : List Value) (v : Value) :
    Value.piecesAll (items ++ [v]) = Value.piecesAll items ++ v.pieces := by
  simp [Value.piecesAll_append, Value.piecesAll]

theorem Value.pieces_of_not_isList {v : Value} (h : v.isList = false) : v.pieces = [.leaf v] := by
  cases v <;> first | rfl | exact absurd h (by simp [Value.isList])

namespace Reader

/-! ## Atoms -/

theorem isList_ofName (name : String) : (Value.ofName name).isList = false := by
  unfold Value.ofName
  split <;> rfl

theorem isList_of_atom {text : String} {v : Value} (h : atom text = .ok v) : v.isList = false := by
  unfold atom at h
  split at h
  · cases h
  · split at h
    · cases h; rfl
    · split at h
      · cases h; rfl
      · cases h; exact isList_ofName text

theorem isProcedure_ofName (name : String) : (Value.ofName name).isProcedure = false := by
  unfold Value.ofName
  split <;> rfl

/-- No atom is read as a procedure. -/
theorem isProcedure_of_atom {text : String} {v : Value} (h : atom text = .ok v) :
    v.isProcedure = false := by
  unfold atom at h
  split at h
  · cases h
  · split at h
    · cases h; rfl
    · split at h
      · cases h; rfl
      · cases h; exact isProcedure_ofName text

theorem pieces_of_atom {text : String} {v : Value} (h : atom text = .ok v) :
    v.pieces = [.leaf v] :=
  Value.pieces_of_not_isList (isList_of_atom h)

/-- The empty atom is the only one that cannot be read. -/
theorem atom_eq_error {text : String} {e : ReadError} (h : atom text = .error e) :
    e = .emptyAtom ∧ text = "" := by
  unfold atom at h
  split at h
  · next hempty =>
    cases h
    exact ⟨rfl, String.isEmpty_iff.mp hempty⟩
  · repeat' split at h
    all_goals cases h

theorem atom_empty : atom "" = .error .emptyAtom := rfl

/-! ## From tokens to the tree -/

/-- The pieces of the lists that are still open, outermost first. -/
def unfinishedPieces : List (List Value) → List Piece
  | [] => []
  | items :: outer => unfinishedPieces outer ++ .opening :: Value.piecesAll items.reverse

theorem unfinishedPieces_push (v : Value) (items : List Value) (outer : List (List Value)) :
    unfinishedPieces ((v :: items) :: outer) = unfinishedPieces (items :: outer) ++ v.pieces := by
  simp [unfinishedPieces, Value.piecesAll_concat]

/-- What an expression is read from spells its pieces. -/
theorem readWith_ok {stack : List (List Value)} {tokens rest : List Token} {v : Value}
    (h : readWith stack tokens = (.ok v, rest)) :
    ∃ used pieces, tokens = used ++ rest ∧ Spelled used pieces ∧
      v.pieces = unfinishedPieces stack ++ pieces := by
  -- along the reader's own recursion: a step moves a piece from what is to come to the stack
  fun_induction readWith stack tokens with
  | case1 | case3 | case6 => cases h
  | case2 stack tail ih =>
    obtain ⟨used, pieces, rfl, hspelled, hpieces⟩ := ih h
    exact ⟨.opening :: used, .opening :: pieces, rfl, .cons .opening hspelled,
      by simpa [unfinishedPieces, Value.piecesAll] using hpieces⟩
  | case4 tail items =>
    cases h
    exact ⟨[.closing], [.closing], rfl, .cons .closing .nil,
      by simp [unfinishedPieces, Value.pieces]⟩
  | case5 tail items outer others ih =>
    obtain ⟨used, pieces, rfl, hspelled, hpieces⟩ := ih h
    exact ⟨.closing :: used, .closing :: pieces, rfl, .cons .closing hspelled,
      by simpa [unfinishedPieces, Value.piecesAll_concat, Value.pieces] using hpieces⟩
  | case7 text tail w hatom =>
    cases h
    exact ⟨[.atom text], [.leaf v], rfl, .cons (.atom hatom) .nil,
      by simp [unfinishedPieces, pieces_of_atom hatom]⟩
  | case8 text tail w items others hatom ih =>
    obtain ⟨used, pieces, rfl, hspelled, hpieces⟩ := ih h
    refine ⟨.atom text :: used, .leaf w :: pieces, rfl, .cons (.atom hatom) hspelled, ?_⟩
    rw [hpieces, unfinishedPieces_push, pieces_of_atom hatom]
    simp

/-! ## From the tree to tokens -/

/-- How the reader goes on when it has read `v`: it is done, or `v` is the next item of the
innermost list. -/
def resume (v : Value) (rest : List Token) :
    List (List Value) → Except ReadError Value × List Token
  | [] => (.ok v, rest)
  | items :: others => readWith ((v :: items) :: others) rest

theorem readWith_leaf {stack : List (List Value)} {used rest : List Token} {v : Value}
    (h : Spelled used [.leaf v]) : readWith stack (used ++ rest) = resume v rest stack := by
  obtain ⟨token, rfl, htoken⟩ := spelled_singleton_iff.mp h
  cases htoken with
  | atom hatom =>
    cases stack <;> simp [readWith, hatom, resume]

theorem readWith_items {items : List Value}
    (hitems : ∀ v ∈ items, ∀ {stack : List (List Value)} {used rest : List Token},
      Spelled used v.pieces → readWith stack (used ++ rest) = resume v rest stack)
    {before : List Value} {stack : List (List Value)} {used rest : List Token}
    (h : Spelled used (Value.piecesAll items)) :
    readWith (before :: stack) (used ++ rest) =
      readWith ((items.reverse ++ before) :: stack) rest := by
  induction items generalizing before used with
  | nil =>
    obtain rfl := List.forall₂_nil_right_iff.mp h
    rfl
  | cons v items ih =>
    obtain ⟨first, others, rfl, hfirst, hothers⟩ := spelled_append_iff.mp h
    rw [List.append_assoc, hitems v (by simp) hfirst, resume,
      ih (fun w hw => hitems w (by simp [hw])) hothers]
    simp

/-- **Tokens that spell a tree are read as that tree**, whatever lists are open and whatever
follows. -/
theorem readWith_spelled {v : Value} {stack : List (List Value)} {used rest : List Token}
    (h : Spelled used v.pieces) : readWith stack (used ++ rest) = resume v rest stack := by
  induction v using Value.treeInduction generalizing stack used rest with
  | integer | float | symbol | special | primitive | closure => exact readWith_leaf h
  | list items ih =>
    -- between the parentheses the items are read into a new innermost list
    rw [Value.pieces] at h
    obtain ⟨_, _, rfl, hopening, htail⟩ := spelled_cons_iff.mp h
    obtain ⟨inner, _, rfl, hinner, hlast⟩ := spelled_append_iff.mp htail
    obtain ⟨_, rfl, hclosing⟩ := spelled_singleton_iff.mp hlast
    cases hopening
    cases hclosing
    rw [List.cons_append, readWith, List.append_assoc,
      readWith_items (fun w hw _ _ _ hspelled => ih w hw hspelled) hinner]
    cases stack <;> simp [readWith, resume]

theorem readFrom_eq_ok_iff {tokens rest : List Token} {v : Value} :
    readFrom tokens = (.ok v, rest) ↔ ∃ used, tokens = used ++ rest ∧ Spelled used v.pieces := by
  constructor
  · intro h
    obtain ⟨used, pieces, htokens, hspelled, hpieces⟩ := readWith_ok h
    exact ⟨used, htokens, by simpa [unfinishedPieces, hpieces] using hspelled⟩
  · rintro ⟨used, rfl, hspelled⟩
    exact readWith_spelled hspelled

/-- A text is read as the one tree whose pieces its tokens spell. -/
theorem readText_eq_ok_iff {source : String} {v : Value} :
    readText source = .ok v ↔ Spelled (tokens source) v.pieces := by
  constructor
  · intro h
    unfold readText at h
    split at h
    · next w hread =>
      cases h
      obtain ⟨used, htokens, hspelled⟩ := readFrom_eq_ok_iff.mp hread
      rwa [htokens, List.append_nil]
    · cases h
    · cases h
  · intro h
    have hread : readFrom (tokens source) = (.ok v, []) :=
      readFrom_eq_ok_iff.mpr ⟨tokens source, by simp, h⟩
    simp [readText, hread]

/-! ## All parts of a tree that is read -/

theorem exists_spelled_of_mem {items : List Value} {used : List Token}
    (h : Spelled used (Value.piecesAll items)) {v : Value} (hv : v ∈ items) :
    ∃ part, part ⊆ used ∧ Spelled part v.pieces := by
  induction items generalizing used with
  | nil => cases hv
  | cons head items ih =>
    obtain ⟨first, others, rfl, hfirst, hothers⟩ := spelled_append_iff.mp h
    rcases List.mem_cons.mp hv with rfl | hv
    · exact ⟨first, List.subset_append_left first others, hfirst⟩
    · obtain ⟨part, hpart, hspelled⟩ := ih hothers hv
      exact ⟨part, List.Subset.trans hpart (List.subset_append_right first others), hspelled⟩

/-- What holds of every list, and of what the atoms are read as, holds of all parts of a tree that
is read. -/
theorem all_of_spelled {p : Value → Prop} {v : Value} {used : List Token}
    (h : Spelled used v.pieces) (hlist : ∀ items, p (.list items))
    (hatom : ∀ text x, .atom text ∈ used → atom text = .ok x → p x) : v.All p := by
  induction v using Value.treeInduction generalizing used with
  | list items ih =>
    rw [Value.pieces] at h
    obtain ⟨_, tail, rfl, -, htail⟩ := spelled_cons_iff.mp h
    obtain ⟨inner, _, rfl, hinner, -⟩ := spelled_append_iff.mp htail
    refine Value.all_list.mpr ⟨hlist items, fun v hv => ?_⟩
    obtain ⟨part, hpart, hspelled⟩ := exists_spelled_of_mem hinner hv
    refine ih v hv hspelled fun text x htext => hatom text x ?_
    exact List.mem_cons_of_mem _ (List.mem_append_left _ (hpart htext))
  | integer | float | symbol | special | primitive | closure =>
    obtain ⟨token, rfl, htoken⟩ := spelled_singleton_iff.mp h
    cases htoken with
    | @atom text _ hread =>
      -- what an atom is read as has no parts
      refine (Value.all_leaf (isList_of_atom hread) fun _ _ _ _ heq => ?_).mpr
        (hatom text _ (by simp) hread)
      have hprocedure := isProcedure_of_atom hread
      rw [heq] at hprocedure
      cases hprocedure

end Reader

end ScopedLisp
