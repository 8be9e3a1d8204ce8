import ScopedLisp.Text.Grapheme.Cluster

/-!
# Backspaces

What the library rustyline, by which the program reads its lines, does with the backspaces of an
input that is not a terminal; it is no part of the program itself.

A backspace in a line takes away the grapheme cluster before it. For each cluster that stands, the
line remembers how many bytes to take away, and it remembers the number in one byte. So a cluster of
256 bytes or more is not taken away whole, and if the cut would fall inside a character, the line
cannot be read at all. `applyBackspaces_of_not_mem`: a line without a backspace is left as it is.
-/

namespace ScopedLisp.Text

/-- The backspace character. -/
def backspace : Char := '\x08'

/-- A line as far as it has come in. -/
structure Draft where
  /-- The characters that stand, the last one first. -/
  kept : List Char
  /-- How many bytes each backspace to come takes away. -/
  sizes : List UInt8

namespace Draft

/-- The bytes of a cluster, counted in one byte. -/
def size (cluster : List Char) : UInt8 := .ofNat ((cluster.map Char.utf8Size).foldl (· + ·) 0)

/-- Drops characters that take up `bytes` bytes, unless there are none that do so exactly. -/
def dropBytes (bytes : Nat) : List Char → Option (List Char)
  | [] => if bytes = 0 then some [] else none
  | c :: rest =>
    if bytes = 0 then some (c :: rest)
    else if c.utf8Size ≤ bytes then dropBytes (bytes - c.utf8Size) rest
    else none

/-- Takes the last cluster away. On an empty line a backspace does nothing. -/
def erase (draft : Draft) : Option Draft :=
  match draft.sizes with
  | [] => some draft
  | bytes :: sizes => (dropBytes bytes.toNat draft.kept).map (⟨·, sizes⟩)

/-- Puts a cluster to the end of the line. -/
def append (draft : Draft) (cluster : List Char) : Draft :=
  ⟨cluster.reverse ++ draft.kept, size cluster :: draft.sizes⟩

/-- Takes in one cluster. A backspace is a control character, so it is a cluster of its own. -/
def push (draft : Draft) (cluster : List Char) : Option Draft :=
  if cluster = [backspace] then draft.erase else some (draft.append cluster)

/-- Clusters without a backspace all stay. -/
theorem foldlM_push (draft : Draft) (clusters : List (List Char))
    (h : [backspace] ∉ clusters) :
    (clusters.foldlM push draft).map kept = some (clusters.flatten.reverse ++ draft.kept) := by
  induction clusters generalizing draft with
  | nil => simp
  | cons cluster rest ih =>
    rw [List.mem_cons, not_or] at h
    have hpush : push draft cluster = some (draft.append cluster) := if_neg (Ne.symm h.1)
    simp [hpush, ih _ h.2, append]

end Draft

/-- The line after its backspaces, if every cut falls between two characters. -/
def applyBackspaces (line : List Char) : Option (List Char) :=
  ((clusters line).foldlM Draft.push ⟨[], []⟩).map fun draft => draft.kept.reverse

theorem applyBackspaces_of_not_mem {line : List Char} (h : backspace ∉ line) :
    applyBackspaces line = some line := by
  have hclusters : [backspace] ∉ clusters line := by
    intro hmem
    rw [← flatten_clusters line] at h
    exact h (List.mem_flatten.2 ⟨_, hmem, List.mem_singleton_self _⟩)
  have hkept := Draft.foldlM_push ⟨[], []⟩ (clusters line) hclusters
  rw [flatten_clusters, List.append_nil] at hkept
  have hmap := congrArg (Option.map List.reverse) hkept
  simpa [applyBackspaces, Option.map_map, Function.comp_def] using hmap

end ScopedLisp.Text
