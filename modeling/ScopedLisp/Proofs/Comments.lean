import ScopedLisp.CommandLine

/-!
# Comments are invisible

A blank line, a remark or a block that is closed again leaves no trace in the read-print loop,
wherever it is put in: all its lines are skipped, and as many blocks are open behind it as before.
That is so inside another block too, where it is skipped once more for another reason.

Blocks nest, so what may stand in one is a grammar (`Enclosed`), and what is proved of blocks is
proved along it, whatever the number of blocks around.
-/

namespace ScopedLisp

open Text

namespace Comment

/-- Blanks apart, the line starts with this mark. -/
def Starts (mark line : String) : Prop := mark.toList <+: trim line.toList

instance (mark line : String) : Decidable (Starts mark line) :=
  inferInstanceAs (Decidable (mark.toList <+: trim line.toList))

/-- What a block is around: lines that neither open nor close one, and blocks. -/
inductive Enclosed : List String → Prop
  | nil : Enclosed []
  | line {line : String} {rest : List String} (hopening : ¬ Starts "#|" line)
      (hclosing : ¬ Starts "|#" line) (hrest : Enclosed rest) : Enclosed (line :: rest)
  | block {opening closing : String} {inner rest : List String} (hopening : Starts "#|" opening)
      (hinner : Enclosed inner) (hclosing : Starts "|#" closing) (hrest : Enclosed rest) :
      Enclosed (opening :: (inner ++ closing :: rest))

/-- A blank line, a remark, or a block from its first line to its last. -/
inductive Whole : List String → Prop
  | blank {line : String} (h : trim line.toList = []) : Whole [line]
  | remark {line : String} (h : Starts ";" line) : Whole [line]
  | block {opening closing : String} {inner : List String} (hopening : Starts "#|" opening)
      (hinner : Enclosed inner) (hclosing : Starts "|#" closing) :
      Whole (opening :: (inner ++ [closing]))

/-- Whether each line is skipped, with `blocks` blocks open before the first one. -/
def skipped (blocks : Nat) : List String → List Bool
  | [] => []
  | line :: rest => (skip blocks line.toList).1 :: skipped (skip blocks line.toList).2 rest

/-- How many blocks are open after the lines. -/
def after (blocks : Nat) (lines : List String) : Nat :=
  lines.foldl (fun blocks line => (skip blocks line.toList).2) blocks

variable {blocks : Nat} {line : String} {lines first second : List String}

@[simp] theorem skipped_nil : skipped blocks [] = [] := rfl

@[simp] theorem skipped_cons :
    skipped blocks (line :: lines) =
      (skip blocks line.toList).1 :: skipped (skip blocks line.toList).2 lines := rfl

@[simp] theorem after_nil : after blocks [] = blocks := rfl

@[simp] theorem after_cons :
    after blocks (line :: lines) = after (skip blocks line.toList).2 lines := rfl

theorem after_append : after blocks (first ++ second) = after (after blocks first) second :=
  List.foldl_append

theorem skipped_append : skipped blocks (first ++ second) =
    skipped blocks first ++ skipped (after blocks first) second := by
  induction first generalizing blocks with
  | nil => rfl
  | cons line first ih => simp [ih]

theorem length_skipped : (skipped blocks lines).length = lines.length := by
  induction lines generalizing blocks with
  | nil => rfl
  | cons line lines ih => simp [ih]

/-! ## One line -/

theorem kind_eq_opening_iff : kind line.toList = .opening ↔ Starts "#|" line := by
  constructor
  · intro h
    unfold kind at h
    split at h
    case h_1 rest htrim => exact ⟨rest, htrim.symm⟩
    all_goals cases h
  · intro ⟨rest, h⟩
    rw [kind, ← h]
    rfl

theorem kind_eq_closing_iff : kind line.toList = .closing ↔ Starts "|#" line := by
  constructor
  · intro h
    unfold kind at h
    split at h
    case h_2 rest htrim => exact ⟨rest, htrim.symm⟩
    all_goals cases h
  · intro ⟨rest, h⟩
    rw [kind, ← h]
    rfl

theorem skip_opening (h : Starts "#|" line) : skip blocks line.toList = (true, blocks + 1) := by
  simp [skip, kind_eq_opening_iff.mpr h]

theorem skip_closing (h : Starts "|#" line) : skip (blocks + 1) line.toList = (true, blocks) := by
  simp [skip, kind_eq_closing_iff.mpr h]

/-- Outside of blocks there is nothing to close. -/
theorem skip_closing_zero (h : Starts "|#" line) : skip 0 line.toList = (false, 0) := by
  simp [skip, kind_eq_closing_iff.mpr h]

theorem skip_remark (h : kind line.toList = .remark) : skip blocks line.toList = (true, blocks) := by
  cases blocks <;> simp [skip, h]

theorem skip_enclosed (hopening : ¬ Starts "#|" line) (hclosing : ¬ Starts "|#" line) :
    skip (blocks + 1) line.toList = (true, blocks + 1) := by
  rw [← kind_eq_opening_iff] at hopening
  rw [← kind_eq_closing_iff] at hclosing
  cases hkind : kind line.toList with
  | opening => exact absurd hkind hopening
  | closing => exact absurd hkind hclosing
  | remark | code => simp [skip, hkind]

/-- A line opens one block, or closes one that was open, or leaves their number as it was. -/
theorem after_skip (blocks : Nat) (line : List Char) :
    (skip blocks line).2 = blocks + 1 ∨ (skip blocks line).2 = blocks ∨
      (skip blocks line).2 + 1 = blocks := by
  unfold skip
  split <;> simp

/-! ## Lines without a trace -/

/-- With `blocks` blocks open the lines are all skipped, and as many are open after them. -/
structure Traceless (blocks : Nat) (lines : List String) : Prop where
  skipped : skipped blocks lines = List.replicate lines.length true
  after : after blocks lines = blocks

namespace Traceless

theorem nil (blocks : Nat) : Traceless blocks [] := ⟨rfl, rfl⟩

theorem append (h : Traceless blocks first) (h' : Traceless blocks second) :
    Traceless blocks (first ++ second) where
  skipped := by
    rw [skipped_append, h.after, h.skipped, h'.skipped, List.replicate_append_replicate,
      List.length_append]
  after := by rw [after_append, h.after, h'.after]

theorem single (h : skip blocks line.toList = (true, blocks)) : Traceless blocks [line] where
  skipped := by simp [h]
  after := by simp [h]

/-- What leaves no trace inside of a block is a block without a trace. -/
theorem block {opening closing : String} {inner : List String} (hopening : Starts "#|" opening)
    (hinner : Traceless (blocks + 1) inner) (hclosing : Starts "|#" closing) :
    Traceless blocks (opening :: (inner ++ [closing])) where
  skipped := by
    simp [skip_opening hopening, skipped_append, hinner.skipped, hinner.after,
      skip_closing hclosing, List.replicate_succ, ← List.replicate_succ']
  after := by
    simp [skip_opening hopening, after_append, hinner.after, skip_closing hclosing]

end Traceless

/-- In a block, what it may be around leaves no trace. -/
theorem Enclosed.traceless (h : Enclosed lines) (blocks : Nat) : Traceless (blocks + 1) lines := by
  -- the number of blocks varies, since what is inside a block is met with one more open
  induction h generalizing blocks with
  | nil => exact .nil _
  | line hopening hclosing _ ih =>
    exact (Traceless.single (skip_enclosed hopening hclosing)).append (ih blocks)
  | @block opening closing inner rest hopening _ hclosing _ ihinner ihrest =>
    have hblock := Traceless.block hopening (ihinner (blocks + 1)) hclosing
    rw [List.append_cons, ← List.cons_append]
    exact hblock.append (ihrest blocks)

theorem Whole.traceless (h : Whole lines) (blocks : Nat) : Traceless blocks lines := by
  cases h with
  | blank h => exact .single (skip_remark (by rw [kind, h]))
  | remark h =>
    obtain ⟨rest, h⟩ := h
    exact .single (skip_remark (by rw [kind, ← h]; rfl))
  | block hopening hinner hclosing => exact .block hopening (hinner.traceless blocks) hclosing

end Comment

/-! ## The loop -/

namespace Shell

open Comment

variable {shell : Shell} {line : String} {lines first second : List String}

theorem feed_of_skip {blocks : Nat} (h : skip shell.blocks line.toList = (true, blocks)) :
    shell.feed line = ("", { shell with blocks }) := by
  rw [feed, h]

theorem feedAll_append : shell.feedAll (first ++ second) =
    ((shell.feedAll first).1 ++ ((shell.feedAll first).2.feedAll second).1,
      ((shell.feedAll first).2.feedAll second).2) := by
  induction first generalizing shell with
  | nil => simp [feedAll]
  | cons line first ih => simp [feedAll, ih, String.append_assoc]

/-- Lines that are skipped print nothing and leave the session as it was. -/
theorem feedAll_of_skipped (h : skipped shell.blocks lines = List.replicate lines.length true) :
    shell.feedAll lines = ("", { shell with blocks := after shell.blocks lines }) := by
  induction lines generalizing shell with
  | nil => rfl
  | cons line lines ih =>
    rw [skipped_cons, List.length_cons, List.replicate_succ, List.cons.injEq] at h
    have hline : shell.feed line = ("", ⟨shell.session, (skip shell.blocks line.toList).2⟩) :=
      feed_of_skip (Prod.ext h.1 rfl)
    have hlines := @ih ⟨shell.session, (skip shell.blocks line.toList).2⟩ h.2
    simp [feedAll, hline, hlines]

theorem feedAll_of_traceless (h : Traceless shell.blocks lines) :
    shell.feedAll lines = ("", shell) := by
  rw [feedAll_of_skipped h.skipped, h.after]

end Shell

/-! ## The program -/

namespace CommandLine

open Comment

/-- The lines of the input as they are handed to the loop, `none` for one that cannot be read. -/
def handed (input : String) : List (Option String) := (rawLines [] input.toList).map typed?

/-- The lines before the first one that cannot be read. -/
def readable (rows : List (Option String)) : List String := (rows.takeWhile (·.isSome)).filterMap id

theorem lines_eq (input : String) :
    lines input = (readable (handed input), (handed input).any (·.isNone)) := rfl

@[simp] theorem readable_none (rows : List (Option String)) : readable (none :: rows) = [] := rfl

@[simp] theorem readable_some (line : String) (rows : List (Option String)) :
    readable (some line :: rows) = line :: readable rows := rfl

theorem readable_map_some_append (lines : List String) (rows : List (Option String)) :
    readable (lines.map some ++ rows) = lines ++ readable rows := by
  induction lines with
  | nil => rfl
  | cons line lines ih => simp [ih]

/-- Whatever the loop is fed before and behind, lines without a trace change nothing of what it
prints. -/
theorem feedAll_readable_insert {inserted : List String}
    (h : ∀ blocks, Traceless blocks inserted) (before rest : List (Option String)) (shell : Shell) :
    shell.feedAll (readable (before ++ (inserted.map some ++ rest))) =
      shell.feedAll (readable (before ++ rest)) := by
  -- the shell varies: the rows before lead it to the state in which the insertion meets it
  induction before generalizing shell with
  | nil =>
    simp [readable_map_some_append, Shell.feedAll_append, Shell.feedAll_of_traceless (h shell.blocks)]
  | cons row before ih =>
    cases row with
    | none => rfl
    | some line => simp [Shell.feedAll, ih]

theorem run_insert {inserted : List String} (h : ∀ blocks, Traceless blocks inserted)
    {before rest : List (Option String)} {input input' : String}
    (hinput : handed input = before ++ rest)
    (hinput' : handed input' = before ++ (inserted.map some ++ rest)) (args : List String) :
    run args input' = run args input := by
  have hread : (inserted.map some).any (·.isNone) = false := by
    simp [List.any_eq_false]
  simp only [run, lines_eq, hinput, hinput', feedAll_readable_insert h, List.any_append, hread,
    Bool.false_or]

/-- The text stops at the end of a line. -/
def EndsLine (text : String) : Prop := text.toList = [] ∨ text.toList.getLast? = some '\n'

theorem rawLines_append (begun start rest : List Char) :
    rawLines begun (start ++ '\n' :: rest) =
      rawLines begun (start ++ ['\n']) ++ rawLines [] rest := by
  induction start generalizing begun with
  | nil => simp [rawLines]
  | cons c start ih =>
    by_cases hc : c = '\n'
    · simp [rawLines, hc, ih]
    · simp [rawLines, hc, ih]

theorem handed_append {text : String} (h : EndsLine text) (rest : String) :
    handed (text ++ rest) = handed text ++ handed rest := by
  unfold handed
  rw [String.toList_append, ← List.map_append]
  congr 1
  rcases h with h | h
  · simp [h, rawLines]
  · obtain ⟨start, h⟩ := List.getLast?_eq_some_iff.mp h
    rw [h, List.append_assoc, List.singleton_append, rawLines_append]

/-- **Comments are invisible.** A blank line, a remark or a whole block may be put in anywhere, also
inside of a block. All its lines are skipped and as many blocks are open after it as before it; the
other lines are skipped or not as without it; and the program leaves the same report, on any two
inputs that are handed to the loop as the rows without it and with it, so in particular when it is a
piece of text that is put in between two lines. Lines open and close blocks one by one, and a closing
line with no block open is code. -/
theorem comments_invisible {inserted : List String} (h : Whole inserted) :
    (∀ blocks before rest,
      after blocks (before ++ inserted) = after blocks before ∧
      after blocks (before ++ inserted ++ rest) = after blocks (before ++ rest) ∧
      ∃ answers answers', answers.length = before.length ∧
        skipped blocks (before ++ rest) = answers ++ answers' ∧
        skipped blocks (before ++ inserted ++ rest) =
          answers ++ List.replicate inserted.length true ++ answers') ∧
    (∀ args before rest input input', handed input = before ++ rest →
      handed input' = before ++ inserted.map some ++ rest → run args input' = run args input) ∧
    (∀ args text chunk rest, EndsLine text → EndsLine chunk → handed chunk = inserted.map some →
      run args (text ++ chunk ++ rest) = run args (text ++ rest)) ∧
    ∀ line,
      (∀ blocks, (skip blocks line.toList).2 = blocks + 1 ∨ (skip blocks line.toList).2 = blocks ∨
        (skip blocks line.toList).2 + 1 = blocks) ∧
      (Starts "|#" line → skip 0 line.toList = (false, 0) ∧ ∀ session,
        Shell.feed ⟨session, 0⟩ line = (Shell.answer (session.run depthLimit line).1,
          ⟨(session.run depthLimit line).2, 0⟩)) := by
  have htraceless := h.traceless
  refine ⟨fun blocks before rest => ?_, fun args before rest input input' hinput hinput' => ?_,
    fun args text chunk rest htext hchunk hinserted => ?_, fun line => ⟨?_, fun hline => ?_⟩⟩
  · have hinserted := htraceless (after blocks before)
    refine ⟨?_, ?_, skipped blocks before, skipped (after blocks before) rest, length_skipped,
      skipped_append, ?_⟩
    · rw [after_append, hinserted.after]
    · rw [after_append, after_append, hinserted.after, ← after_append]
    · rw [skipped_append, skipped_append, after_append, hinserted.after, hinserted.skipped]
  · rw [List.append_assoc] at hinput'
    exact run_insert htraceless hinput hinput' args
  · refine run_insert htraceless (handed_append htext rest) ?_ args
    rw [String.append_assoc, handed_append htext, handed_append hchunk, hinserted]
  · exact fun blocks => after_skip blocks line.toList
  · have hcode := skip_closing_zero hline
    exact ⟨hcode, fun session => by rw [Shell.feed, hcode]⟩

/-- A block that hides a definition, with a block inside, between two lines of code. -/
theorem comments_invisible_block :
    run [] ("(define x 1)\n" ++ "  #| hidden\n(define x 2)\n#|\n|#\n |# \n" ++ "x\n") =
      run [] ("(define x 1)\n" ++ "x\n") := by
  have hinner : Enclosed ["(define x 2)", "#|", "|#"] :=
    .line (by decide +kernel) (by decide +kernel)
      (.block (by decide +kernel) .nil (by decide +kernel) .nil)
  have hblock : Whole ("  #| hidden" :: (["(define x 2)", "#|", "|#"] ++ [" |# "])) :=
    .block (by decide +kernel) hinner (by decide +kernel)
  have hforms := (comments_invisible hblock).2.2.1
  exact hforms [] _ _ _ (.inr (by decide +kernel)) (.inr (by decide +kernel)) (by decide +kernel)

end CommandLine

end ScopedLisp
