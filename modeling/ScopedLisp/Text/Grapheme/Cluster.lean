import ScopedLisp.Text.Grapheme.Class

/-!
# Grapheme clusters

`clusters` cuts a text into what a reader takes for its letters (the extended grapheme clusters
of Unicode), as the line reading of the library rustyline does: a backspace takes away one of
them. Characters come in one after the other, and each one either joins the cluster before it or
begins the next; `Context` is what that decision has to know of the cluster. Nothing is lost: the
clusters in a row are the text (`flatten_clusters`).
-/

namespace ScopedLisp.Text

/-- How far a cluster has come towards a conjunct of two consonants. -/
inductive Conjunct where
  /-- No consonant to join. -/
  | absent
  /-- A consonant, with nothing behind it that joins. -/
  | begun
  /-- A consonant and a linker: the next consonant joins. -/
  | linked
deriving DecidableEq, Repr

/-- What is known of an unfinished cluster. -/
structure Context where
  /-- The class of its last character. -/
  last : GraphemeClass
  /-- It ends in a regional indicator that has no partner yet. -/
  halfFlag : Bool
  /-- It ends in a pictograph with its extending characters and at most one joiner. -/
  pictured : Bool
  conjunct : Conjunct
deriving DecidableEq, Repr

namespace Context

/-- The context of no character at all: whatever comes begins a cluster. -/
def start : Context := ⟨.control, false, false, .absent⟩

/-- The context after one more character of the cluster. -/
def advance (context : Context) (next : GraphemeClass) : Context where
  last := next
  halfFlag := next = .regional && !context.halfFlag
  pictured :=
    match next with
    | .pictograph => true
    | .extending | .linker | .nonJoiner | .joiner => context.pictured && context.last ≠ .joiner
    | _ => false
  conjunct :=
    match next with
    | .consonant => .begun
    | .linker => if context.conjunct = .absent then .absent else .linked
    | .extending | .joiner => context.conjunct
    | _ => .absent

/-- Whether a character of class `next` belongs to the cluster. A carriage return and its line
feed are one, and otherwise a control character stands alone; the parts of a Hangul syllable
stay together; a mark follows its letter and a prepended sign is followed by its own; two
consonants join across a linker, two pictographs across a joiner, two regional indicators into
a flag. -/
def joins (context : Context) (next : GraphemeClass) : Bool :=
  match context.last, next with
  | .carriageReturn, .lineFeed => true
  | .carriageReturn, _ | .lineFeed, _ | .control, _ => false
  | _, .carriageReturn | _, .lineFeed | _, .control => false
  | .leading, .leading | .leading, .vowel => true
  | .leading, .openSyllable | .leading, .closedSyllable => true
  | .vowel, .vowel | .vowel, .trailing => true
  | .openSyllable, .vowel | .openSyllable, .trailing => true
  | .trailing, .trailing | .closedSyllable, .trailing => true
  | _, .extending | _, .linker | _, .nonJoiner | _, .joiner | _, .spacing => true
  | .prepended, _ => true
  | _, .consonant => context.conjunct = .linked
  | .joiner, .pictograph => context.pictured
  | .regional, .regional => context.halfFlag
  | _, _ => false

end Context

/-- A text cut as far as it has come in. -/
structure Cut where
  /-- The clusters, the last one first, and so the characters in each. -/
  clusters : List (List Char)
  context : Context

namespace Cut

/-- The cut of the empty text. -/
def empty : Cut := ⟨[], .start⟩

/-- Puts a character to the last cluster, or into the first one. -/
def extend (c : Char) : List (List Char) → List (List Char)
  | [] => [[c]]
  | cluster :: before => (c :: cluster) :: before

/-- Takes in one more character. -/
def push (cut : Cut) (c : Char) : Cut :=
  let next := GraphemeClass.ofChar c
  if cut.context.joins next then ⟨extend c cut.clusters, cut.context.advance next⟩
  else ⟨[c] :: cut.clusters, Context.start.advance next⟩

/-- The clusters in the order of the text. -/
def toList (cut : Cut) : List (List Char) := (cut.clusters.map List.reverse).reverse

@[simp] theorem flatten_toList_empty : empty.toList.flatten = [] := rfl

theorem flatten_toList_push (cut : Cut) (c : Char) :
    (cut.push c).toList.flatten = cut.toList.flatten ++ [c] := by
  simp only [push]
  split
  · cases h : cut.clusters <;> simp [toList, extend, h]
  · simp [toList]

theorem flatten_toList_foldl (cut : Cut) (text : List Char) :
    (text.foldl push cut).toList.flatten = cut.toList.flatten ++ text := by
  induction text generalizing cut with
  | nil => simp
  | cons c rest ih => simp [ih, flatten_toList_push]

end Cut

/-- The grapheme clusters of a text. -/
def clusters (text : List Char) : List (List Char) := (text.foldl Cut.push .empty).toList

/-- The clusters in a row are the text. -/
theorem flatten_clusters (text : List Char) : (clusters text).flatten = text := by
  simp [clusters, Cut.flatten_toList_foldl]

end ScopedLisp.Text
