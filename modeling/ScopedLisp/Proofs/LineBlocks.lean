import ScopedLisp.Proofs.Comments

/-!
# Blocks on one line

A line is judged by its start alone. So one that is a block in itself, as `#| note |#`, is taken
for the first line of a block: that it closes the block again goes unseen. From there on every line
is skipped, up to one that closes a block where none would have been open. What was code on the way
is lost, that line with it; and where there is no such line, so is all the rest.

Two runs are compared, without the line and with it, which has one more block open. The difference
stays as long as the first of them has a block open whenever one is closed (`Matched`), and is gone
with the first line that has none to close.
-/

namespace ScopedLisp

open Text

namespace Comment

/-- Blanks apart, the line opens a block and closes it, with neither mark in between. -/
def IsLineBlock (line : String) : Prop :=
  ∃ text, trim line.toList = '#' :: '|' :: (text ++ ['|', '#']) ∧
    ¬ ['#', '|'] <:+: text ∧ ¬ ['|', '#'] <:+: text

/-- With `blocks` blocks open before the lines, each line that closes a block has one to close. -/
def Matched (blocks : Nat) : List String → Prop
  | [] => True
  | line :: rest =>
    (Starts "|#" line → blocks ≠ 0) ∧ Matched (skip blocks line.toList).2 rest

variable {blocks : Nat} {line closing : String} {lines inner tail : List String}

theorem IsLineBlock.starts (h : IsLineBlock line) : Starts "#|" line := by
  obtain ⟨text, htrim, -⟩ := h
  exact ⟨text ++ ['|', '#'], htrim.symm⟩

/-! ## One more open block -/

/-- Only an opening line leaves a block open where none was. -/
theorem snd_skip_zero (hopening : ¬ Starts "#|" line) : (skip 0 line.toList).2 = 0 := by
  rw [← kind_eq_opening_iff] at hopening
  cases hkind : kind line.toList with
  | opening => exact absurd hkind hopening
  | closing | remark | code => simp [skip, hkind]

/-- With one more block open a line is skipped, and one more is open after it, unless it closes the
one that is open more. -/
theorem skip_add_one (h : Starts "|#" line → blocks ≠ 0) :
    skip (blocks + 1) line.toList = (true, (skip blocks line.toList).2 + 1) := by
  by_cases hopening : Starts "#|" line
  · rw [skip_opening hopening, skip_opening hopening]
  by_cases hclosing : Starts "|#" line
  · obtain ⟨outer, rfl⟩ := Nat.exists_eq_succ_of_ne_zero (h hclosing)
    rw [skip_closing hclosing, skip_closing hclosing]
  · rw [skip_enclosed hopening hclosing]
    cases blocks with
    | zero => rw [snd_skip_zero hopening]
    | succ outer => rw [skip_enclosed hopening hclosing]

/-- Lines that close no more than they open are all skipped with one more block open, and it stays
open. -/
theorem Matched.skipped (h : Matched blocks lines) :
    skipped (blocks + 1) lines = List.replicate lines.length true ∧
      after (blocks + 1) lines = after blocks lines + 1 := by
  induction lines generalizing blocks with
  | nil => exact ⟨rfl, rfl⟩
  | cons line lines ih =>
    obtain ⟨hskipped, hafter⟩ := ih h.2
    have hline := skip_add_one h.1
    constructor
    · rw [skipped_cons, hline, hskipped, List.length_cons, List.replicate_succ]
    · rw [after_cons, hline, hafter, after_cons]

/-- Other lines have a first one among them that closes a block where none is open. -/
theorem matched_or_stray (blocks : Nat) (lines : List String) :
    Matched blocks lines ∨ ∃ inner closing tail, lines = inner ++ closing :: tail ∧
      Matched blocks inner ∧ after blocks inner = 0 ∧ Starts "|#" closing := by
  induction lines generalizing blocks with
  | nil => exact .inl .intro
  | cons line lines ih =>
    by_cases hstray : Starts "|#" line ∧ blocks = 0
    · exact .inr ⟨[], line, lines, rfl, .intro, hstray.2, hstray.1⟩
    · have hline : Starts "|#" line → blocks ≠ 0 := fun hclosing hzero => hstray ⟨hclosing, hzero⟩
      rcases ih (skip blocks line.toList).2 with hmatched | ⟨inner, closing, tail, rfl, h⟩
      · exact .inl ⟨hline, hmatched⟩
      · exact .inr ⟨line :: inner, closing, tail, rfl, ⟨hline, h.1⟩, h.2⟩

/-- Such a line is code, and closes the one block that is open more. -/
theorem skipped_stray (hinner : Matched blocks inner) (hzero : after blocks inner = 0)
    (hclosing : Starts "|#" closing) (tail : List String) :
    skipped blocks (inner ++ closing :: tail) = skipped blocks inner ++ false :: skipped 0 tail ∧
      skipped (blocks + 1) (inner ++ closing :: tail) =
        List.replicate (inner.length + 1) true ++ skipped 0 tail ∧
      after (blocks + 1) (inner ++ closing :: tail) = after blocks (inner ++ closing :: tail) := by
  obtain ⟨hskipped, hafter⟩ := hinner.skipped
  have hclose : skip (0 + 1) closing.toList = (true, 0) := skip_closing hclosing
  refine ⟨?_, ?_, ?_⟩
  · rw [skipped_append, hzero, skipped_cons, skip_closing_zero hclosing]
  · rw [skipped_append, hskipped, hafter, hzero, skipped_cons, hclose, List.replicate_succ',
      List.append_assoc]
    rfl
  · rw [after_append, after_append, hafter, hzero, after_cons, after_cons, hclose,
      skip_closing_zero hclosing]

/-- One more open block makes no difference only where all is skipped anyway. -/
theorem skipped_add_one_iff :
    skipped (blocks + 1) lines = skipped blocks lines ↔
      skipped blocks lines = List.replicate lines.length true := by
  rcases matched_or_stray blocks lines with h | ⟨inner, closing, tail, rfl, hinner, hzero, hclosing⟩
  · rw [h.skipped.1]
    exact eq_comm
  · obtain ⟨hwithout, hwith, -⟩ := skipped_stray hinner hzero hclosing tail
    -- the line that closes is skipped in the one run and code in the other
    have hlength : (skipped blocks inner).length = inner.length := length_skipped
    have hcode : (skipped blocks (inner ++ closing :: tail))[inner.length]? = some false := by
      rw [hwithout, ← hlength, List.getElem?_append_right (Nat.le_refl _), Nat.sub_self]
      rfl
    constructor
    · intro h
      rw [← h, hwith, List.getElem?_append_left (by simp)] at hcode
      simp at hcode
    · intro h
      rw [h] at hcode
      simp at hcode

/-! ## The line -/

/-- **A block on one line is not closed.** Put in anywhere, the line is skipped, but one more block
is open after it than before. The lines before it are skipped or not as without it. Those behind it
are all skipped and their number of open blocks stays one higher, if they close no more blocks than
without it they have to close; and then the loop prints nothing for them and the session stays as it
was. Otherwise they are skipped up to the first that has none to close, which without the line is
code, and the rest of them is as without it. So the line changes no answer only where all lines
behind it are skipped without it too. -/
theorem line_block_stays_open (h : IsLineBlock line) (n : Nat) (before rest : List String) :
    let blocks := after n before
    after n (before ++ [line]) = blocks + 1 ∧
    skipped n (before ++ line :: rest) =
      skipped n before ++ true :: skipped (blocks + 1) rest ∧
    skipped n (before ++ rest) = skipped n before ++ skipped blocks rest ∧
    (skipped (blocks + 1) rest = skipped blocks rest ↔
      skipped blocks rest = List.replicate rest.length true) ∧
    (Matched blocks rest →
      skipped (blocks + 1) rest = List.replicate rest.length true ∧
      after n (before ++ line :: rest) = after n (before ++ rest) + 1 ∧
      ∀ session, Shell.feedAll ⟨session, blocks⟩ (line :: rest) =
        ("", ⟨session, after n (before ++ rest) + 1⟩)) ∧
    (¬ Matched blocks rest → ∃ inner closing tail, rest = inner ++ closing :: tail ∧
      Matched blocks inner ∧ after blocks inner = 0 ∧ Starts "|#" closing ∧
      skipped blocks rest = skipped blocks inner ++ false :: skipped 0 tail ∧
      skipped (blocks + 1) rest = List.replicate (inner.length + 1) true ++ skipped 0 tail ∧
      after n (before ++ line :: rest) = after n (before ++ rest)) := by
  intro blocks
  have hline : skip blocks line.toList = (true, blocks + 1) := skip_opening h.starts
  have hwithout : after n (before ++ rest) = after blocks rest := after_append
  have hwith : after n (before ++ line :: rest) = after (blocks + 1) rest := by
    rw [after_append, after_cons, hline]
  refine ⟨?_, ?_, skipped_append, skipped_add_one_iff, fun hmatched => ?_, fun hmatched => ?_⟩
  · rw [after_append, after_cons, hline, after_nil]
  · rw [skipped_append, skipped_cons, hline]
  · obtain ⟨hskipped, hopen⟩ := hmatched.skipped
    rw [hwith, hwithout]
    refine ⟨hskipped, hopen, fun session => ?_⟩
    have hall : skipped blocks (line :: rest) = List.replicate (line :: rest).length true := by
      rw [skipped_cons, hline, hskipped, List.length_cons, List.replicate_succ]
    have hfed : Shell.feedAll ⟨session, blocks⟩ (line :: rest) =
        ("", ⟨session, after blocks (line :: rest)⟩) := Shell.feedAll_of_skipped hall
    rw [hfed, after_cons, hline, hopen]
  · obtain ⟨inner, closing, tail, rfl, hinner, hzero, hclosing⟩ :=
      (matched_or_stray blocks rest).resolve_left hmatched
    obtain ⟨hcode, hskipped, hsame⟩ := skipped_stray hinner hzero hclosing tail
    refine ⟨inner, closing, tail, rfl, hinner, hzero, hclosing, hcode, hskipped, ?_⟩
    rw [hwith, hwithout, hsame]

theorem isLineBlock_note : IsLineBlock "#| note |#" :=
  ⟨" note ".toList, by decide +kernel, by decide +kernel, by decide +kernel⟩

/-- Two lines of code and one that only closes are lost behind the note; the last one is not. -/
theorem line_block_stays_open_note :
    skipped 0 (["x"] ++ "#| note |#" :: ["(+ 1 2)", "y", "|#", "z"]) =
      [false, true, true, true, true, false] ∧
    skipped 0 (["x"] ++ ["(+ 1 2)", "y", "|#", "z"]) = [false, false, false, false, false] := by
  obtain ⟨-, hwith, hwithout, -⟩ :=
    line_block_stays_open isLineBlock_note 0 ["x"] ["(+ 1 2)", "y", "|#", "z"]
  rw [hwith, hwithout]
  decide +kernel

/-- A note on a line of its own, and the line of code behind it is skipped, which is not skipped
without the note; and a block is open after it, where none was open before. -/
theorem line_block_leaves_trace :
    IsLineBlock "#| note |#" ∧ skipped 0 ["(+ 1 2)"] = [false] ∧
      skipped 0 ["#| note |#", "(+ 1 2)"] = [true, true] ∧ after 0 [] = 0 ∧
      after 0 ["#| note |#"] = 1 :=
  ⟨isLineBlock_note, by decide +kernel⟩

end Comment

end ScopedLisp
