import ScopedLisp.Proofs.Cursor

/-!
# Rows of calls on a scanner

Who uses a scanner sees what its calls answer, and nothing else. `Call` lists the calls, and
`Cursor` is the least that explains the answers: the items read since the last cut, the items not
read yet, and whether the end has been run into.

A scanner does more than that. It pulls items before they are wanted, keeps them through cuts and
steps back over them. None of it shows: `answers_eq_cursor` says so for any row of calls. The
simulation it rests on is `Scanner.Follows`, and `Follows.call` takes it through one call.
-/

namespace ScopedLisp

variable {α σ : Type}

/-- What a scanner can be asked to do. -/
inductive Call (α : Type) where
  | next
  | peek
  | current
  | view
  | ignore
  | extract
  | acceptIf (p : α → Bool)
  | skipWhile (p : α → Bool)
  | skipUntil (p : α → Bool)

/-- What a call answers. -/
inductive Answer (α : Type) where
  | item (a : Option α)
  | items (as : List α)
  | flag (b : Bool)
  | done

/-- What a call cuts off where `view` is in view. -/
def Call.cutOff (view : List α) : Call α → List (List α)
  | .ignore | .extract => [view]
  | _ => []

/-- Call after call: the answers in order, and the state that is left. -/
def Call.run (call : σ → Call α → Answer α × σ) (s : σ) : List (Call α) → List (Answer α) × σ
  | [] => ([], s)
  | c :: calls =>
    let rest := run call (call s c).2 calls
    ((call s c).1 :: rest.1, rest.2)

/-! ## The plain cursor -/

/-- A place in a row of items: what was read since the last cut, what was not read yet, and whether
a step went beyond the last item. -/
structure Cursor (α : Type) where
  view : List α
  rest : List α
  pastEnd : Bool

namespace Cursor

/-- The cursor in front of all items. -/
def ofList (items : List α) : Cursor α := ⟨[], items, false⟩

/-- The item read last, unless the end has been run into. -/
def current (c : Cursor α) : Option α := if c.pastEnd then none else c.view.getLast?

/-- One step forward. -/
def next (c : Cursor α) : Option α × Cursor α :=
  match c.rest with
  | [] => (none, { c with pastEnd := true })
  | a :: rest => (some a, { c with view := c.view ++ [a], rest })

/-- Drops the view. -/
def ignore (c : Cursor α) : Cursor α := { c with view := [] }

/-- Takes the next item if it satisfies `p`. -/
def acceptIf (p : α → Bool) (c : Cursor α) : Option α × Cursor α :=
  if c.rest.head?.any p then c.next else (none, c)

/-- Takes the longest run of items that satisfy `p`; whether there was one. -/
def takeRun (p : α → Bool) (c : Cursor α) : Bool × Cursor α :=
  (!(c.rest.takeWhile p).isEmpty,
    { c with view := c.view ++ c.rest.takeWhile p, rest := c.rest.dropWhile p })

def call (c : Cursor α) : Call α → Answer α × Cursor α
  | .next => (.item c.next.1, c.next.2)
  | .peek => (.item c.rest.head?, c)
  | .current => (.item c.current, c)
  | .view => (.items c.view, c)
  | .ignore => (.done, c.ignore)
  | .extract => (.items c.view, c.ignore)
  | .acceptIf p => (.item (c.acceptIf p).1, (c.acceptIf p).2)
  | .skipWhile p => (.flag (c.takeRun p).1, (c.takeRun p).2)
  | .skipUntil p => (.flag (c.takeRun (!p ·)).1, (c.takeRun (!p ·)).2)

abbrev run (c : Cursor α) : List (Call α) → List (Answer α) × Cursor α := Call.run call c

variable {c : Cursor α}

theorem takeRun_of_refused {p : α → Bool} (h : c.rest.head?.any p = false) :
    c.takeRun p = (false, c) := by
  obtain ⟨view, rest, pastEnd⟩ := c
  cases rest with
  | nil => simp [takeRun]
  | cons a rest =>
    have hp : p a = false := h
    simp [takeRun, hp]

theorem takeRun_of_accepted {p : α → Bool} {a : α} {rest : List α} (hrest : c.rest = a :: rest)
    (hp : p a = true) :
    c.takeRun p = (true, (takeRun p { c with view := c.view ++ [a], rest }).2) := by
  simp [takeRun, hrest, hp]

/-- A call moves items on, and what it drops it has cut off. -/
theorem call_conserves (c : Cursor α) (call : Call α) :
    (call.cutOff c.view).flatten ++ ((c.call call).2.view ++ (c.call call).2.rest) =
      c.view ++ c.rest := by
  have hnext : c.next.2.view ++ c.next.2.rest = c.view ++ c.rest := by
    unfold next
    split
    · rfl
    · next hrest => simp [hrest]
  cases call with
  | next => exact hnext
  | peek | current | view => rfl
  | ignore | extract => simp [Call.cutOff, Cursor.call, ignore]
  | skipWhile p | skipUntil p => simp [Call.cutOff, Cursor.call, takeRun]
  | acceptIf p =>
    simp only [Cursor.call, acceptIf]
    split
    · exact hnext
    · rfl

end Cursor

/-! ## The scanner as what its calls answer -/

namespace Scanner

def call (s : Scanner α) : Call α → Answer α × Scanner α
  | .next => (.item s.next.1, s.next.2)
  | .peek => (.item s.peek.1, s.peek.2)
  | .current => (.item s.current, s)
  | .view => (.items s.view, s)
  | .ignore => (.done, s.ignore)
  | .extract => (.items s.extract.1, s.extract.2)
  | .acceptIf p => (.item (s.acceptIf p).1, (s.acceptIf p).2)
  | .skipWhile p => (.flag (s.skipWhile p).1, (s.skipWhile p).2)
  | .skipUntil p => (.flag (s.skipUntil p).1, (s.skipUntil p).2)

abbrev run (s : Scanner α) : List (Call α) → List (Answer α) × Scanner α := Call.run call s

/-- The index in the buffer of the item read last, one less than the number of items taken. -/
def position (s : Scanner α) : Int := s.taken - 1

/-- The views that a row of calls cuts off, in order. -/
def cuts (s : Scanner α) : List (Call α) → List (List α)
  | [] => []
  | c :: calls => c.cutOff s.view ++ cuts (s.call c).2 calls

variable {s : Scanner α} {c : Cursor α}

/-- The scanner stands where the cursor stands, and on the same item. -/
structure Follows (s : Scanner α) (c : Cursor α) : Prop where
  reads : s.Reads c.view c.rest
  current_eq : s.current = c.current
  rest_eq : c.pastEnd = true → c.rest = []

theorem follows_ofList (items : List α) : (ofList items).Follows (.ofList items) where
  reads := reads_ofList items
  current_eq := rfl
  rest_eq := nofun

/-! ## One call -/

/-- What is pulled for a look ahead goes behind the current item. -/
theorem current_peek (h : s.Valid) : s.peek.2.current = s.current := by
  unfold peek advance fill current
  dsimp only
  split
  · rfl
  · next hne =>
    rcases h with hle | ⟨htaken, hnil⟩
    · rw [Array.getElem?_append_left (by omega)]
    · rw [hnil, List.take_nil]
      simp

theorem Follows.next_nil (h : s.Follows c) (hrest : c.rest = []) :
    s.next.1 = none ∧ s.next.2.Follows { c with pastEnd := true } := by
  have hreads := h.reads
  rw [hrest] at hreads
  obtain ⟨hcurrent, hadvance⟩ := hreads.advance_nil
  exact ⟨hcurrent, hrest ▸ hadvance, hcurrent, fun _ => hrest⟩

theorem Follows.next_cons (h : s.Follows c) {a : α} {rest : List α} (hrest : c.rest = a :: rest) :
    s.next.1 = some a ∧ s.next.2.Follows { c with view := c.view ++ [a], rest } := by
  have hreads := h.reads
  rw [hrest] at hreads
  obtain ⟨hcurrent, hadvance⟩ := hreads.advance_cons
  cases hpast : c.pastEnd with
  | true =>
    -- with an item ahead, the end has not been run into
    have hnil := h.rest_eq hpast
    rw [hrest] at hnil
    cases hnil
  | false =>
    refine ⟨hcurrent, hadvance, ?_, nofun⟩
    rw [Cursor.current, if_neg Bool.false_ne_true, List.getLast?_concat]
    exact hcurrent

theorem Follows.next (h : s.Follows c) : s.next.1 = c.next.1 ∧ s.next.2.Follows c.next.2 := by
  unfold Cursor.next
  split
  · next hrest => exact h.next_nil hrest
  · next hrest => exact h.next_cons hrest

theorem Follows.peek (h : s.Follows c) : s.peek.1 = c.rest.head? ∧ s.peek.2.Follows c := by
  obtain ⟨hanswer, hreads⟩ := h.reads.peek
  refine ⟨hanswer, hreads, ?_, h.rest_eq⟩
  rw [current_peek h.reads.valid]
  exact h.current_eq

theorem Follows.ignore (h : s.Follows c) : s.ignore.Follows c.ignore where
  reads := h.reads.ignore
  current_eq := by
    unfold Cursor.current Cursor.ignore
    cases c.pastEnd <;> rfl
  rest_eq := h.rest_eq

theorem Follows.acceptIf_some {p : α → Bool} (h : s.Follows c) {a : α} {rest : List α}
    (hrest : c.rest = a :: rest) (hp : p a = true) :
    ∃ t, s.acceptIf p = (some a, t) ∧ t.Follows { c with view := c.view ++ [a], rest } := by
  obtain ⟨hanswer, hfollows⟩ := h.next_cons hrest
  have hcurrent : s.advance.current = some a := hanswer
  refine ⟨s.advance, ?_, hfollows⟩
  rw [acceptIf_eq, hcurrent]
  exact if_pos hp

/-- A step that is taken back is a look ahead. -/
theorem Follows.acceptIf_none {p : α → Bool} (h : s.Follows c) (hp : c.rest.head?.any p = false) :
    ∃ t, s.acceptIf p = (none, t) ∧ t.Follows c := by
  obtain ⟨hanswer, hfollows⟩ := h.peek
  have hcurrent : s.advance.current = c.rest.head? := hanswer
  refine ⟨s.peek.2, ?_, hfollows⟩
  rw [acceptIf_eq, hcurrent]
  cases hhead : c.rest.head? with
  | none => rfl
  | some a =>
    rw [hhead, Option.any_some] at hp
    simp [hp]

theorem Follows.acceptIf (p : α → Bool) (h : s.Follows c) :
    (s.acceptIf p).1 = (c.acceptIf p).1 ∧ (s.acceptIf p).2.Follows (c.acceptIf p).2 := by
  unfold Cursor.acceptIf
  cases hp : c.rest.head?.any p with
  | false =>
    obtain ⟨t, haccept, hfollows⟩ := h.acceptIf_none hp
    rw [haccept]
    exact ⟨rfl, hfollows⟩
  | true =>
    obtain ⟨a, hhead, hpa⟩ := (Option.any_eq_true p c.rest.head?).mp hp
    obtain ⟨rest, hrest⟩ := List.head?_eq_some_iff.mp hhead
    obtain ⟨t, haccept, hfollows⟩ := h.acceptIf_some hrest hpa
    rw [haccept, if_pos rfl]
    unfold Cursor.next
    rw [hrest]
    exact ⟨rfl, hfollows⟩

theorem Follows.skipWhile (p : α → Bool) (h : s.Follows c) :
    (s.skipWhile p).1 = (c.takeRun p).1 ∧ (s.skipWhile p).2.Follows (c.takeRun p).2 := by
  refine ⟨(h.reads.skipWhile p).1, ?_⟩
  -- the run is taken item by item, so the induction is on what is not read yet
  induction hrest : c.rest generalizing s c with
  | nil =>
    have hp : c.rest.head?.any p = false := by rw [hrest]; rfl
    obtain ⟨t, haccept, hfollows⟩ := h.acceptIf_none hp
    rwa [skipWhile_of_refused haccept, Cursor.takeRun_of_refused hp]
  | cons a rest ih =>
    cases hpa : p a with
    | true =>
      obtain ⟨t, haccept, hfollows⟩ := h.acceptIf_some hrest hpa
      rw [skipWhile_of_accepted haccept, Cursor.takeRun_of_accepted hrest hpa]
      exact ih hfollows rfl
    | false =>
      have hp : c.rest.head?.any p = false := by rw [hrest]; exact hpa
      obtain ⟨t, haccept, hfollows⟩ := h.acceptIf_none hp
      rwa [skipWhile_of_refused haccept, Cursor.takeRun_of_refused hp]

/-- **One call** is answered alike, and leaves the two at the same place. -/
theorem Follows.call (h : s.Follows c) (call : Call α) :
    (s.call call).1 = (c.call call).1 ∧ (s.call call).2.Follows (c.call call).2 := by
  cases call with
  | next => exact ⟨congrArg Answer.item h.next.1, h.next.2⟩
  | peek => exact ⟨congrArg Answer.item h.peek.1, h.peek.2⟩
  | current => exact ⟨congrArg Answer.item h.current_eq, h⟩
  | view => exact ⟨congrArg Answer.items h.reads.view_eq, h⟩
  | ignore => exact ⟨rfl, h.ignore⟩
  | extract => exact ⟨congrArg Answer.items h.reads.view_eq, h.ignore⟩
  | acceptIf p => exact ⟨congrArg Answer.item (h.acceptIf p).1, (h.acceptIf p).2⟩
  | skipWhile p => exact ⟨congrArg Answer.flag (h.skipWhile p).1, (h.skipWhile p).2⟩
  | skipUntil p =>
    have hrun := h.skipWhile (!p ·)
    rw [← skipUntil_eq_skipWhile] at hrun
    exact ⟨congrArg Answer.flag hrun.1, hrun.2⟩

/-! ## Rows of calls -/

theorem Follows.run (h : s.Follows c) (calls : List (Call α)) :
    (s.run calls).1 = (c.run calls).1 ∧
      (s.run calls).2.Follows (c.run calls).2 := by
  induction calls generalizing s c with
  | nil => exact ⟨rfl, h⟩
  | cons first calls ih =>
    obtain ⟨hanswer, hfollows⟩ := h.call first
    obtain ⟨hanswers, hlast⟩ := ih hfollows
    refine ⟨?_, hlast⟩
    show (s.call first).1 :: _ = (c.call first).1 :: _
    rw [hanswer, hanswers]

/-- Scanners that stand where one cursor stands cannot be told apart. -/
theorem Follows.run_eq {t : Scanner α} (h : s.Follows c) (ht : t.Follows c)
    (calls : List (Call α)) : (t.run calls).1 = (s.run calls).1 :=
  (ht.run calls).1.trans (h.run calls).1.symm

/-- Nothing is lost and nothing is read twice: what has been cut off, what is in view and what is
ahead make up the source. -/
theorem Follows.cuts_append (h : s.Follows c) (calls : List (Call α)) :
    (s.cuts calls).flatten ++ ((s.run calls).2.view ++ (s.run calls).2.ahead) =
      s.view ++ s.ahead := by
  induction calls generalizing s c with
  | nil => rfl
  | cons first calls ih =>
    have hfollows := (h.call first).2
    calc (s.cuts (first :: calls)).flatten ++ _
        = (first.cutOff s.view).flatten ++ ((s.call first).2.view ++ (s.call first).2.ahead) := by
          rw [cuts, List.flatten_append, List.append_assoc]
          exact congrArg _ (ih hfollows)
      _ = s.view ++ s.ahead := by
          rw [hfollows.reads.view_eq, hfollows.reads.ahead_eq, h.reads.view_eq, h.reads.ahead_eq]
          exact c.call_conserves first

/-- The call takes no item off this scanner. -/
def LooksOnly (s : Scanner α) : Call α → Prop
  | .peek | .current => True
  | .acceptIf p => (s.acceptIf p).1 = none
  | _ => False

theorem Follows.looksOnly {call : Call α} (h : s.Follows c) (hcall : s.LooksOnly call) :
    (s.call call).2.Follows c := by
  cases call with
  | peek => exact h.peek.2
  | current => exact h
  | acceptIf p =>
    have hnone : (s.acceptIf p).1 = none := hcall
    obtain ⟨hanswer, hfollows⟩ := h.acceptIf p
    rw [hnone] at hanswer
    unfold Cursor.acceptIf Cursor.next at hanswer hfollows
    split at hanswer
    · next hany =>
      split at hanswer
      · next hrest => simp [hrest] at hany
      · cases hanswer
    · next hany => rwa [if_neg hany] at hfollows
  | _ => cases hcall

/-- **A scanner answers as a plain cursor**, whatever the calls and in whatever order. It stays in
its buffer, gives back every item of the source once, and is not moved by looking. -/
theorem answers_eq_cursor (items : List α) (calls : List (Call α)) :
    let s := ((ofList items).run calls).2
    let c := ((Cursor.ofList items).run calls).2
    ((ofList items).run calls).1 = ((Cursor.ofList items).run calls).1 ∧
    (s.view = c.view ∧ s.ahead = c.rest ∧ s.current = c.current) ∧
    (-1 ≤ s.position ∧ s.position ≤ s.buffer.size) ∧
    ((ofList items).cuts calls).flatten ++ (s.view ++ s.ahead) = items ∧
    (∀ call, s.LooksOnly call → ∀ later, ((s.call call).2.run later).1 = (s.run later).1) ∧
    ∀ p, s.skipUntil (!p ·) = s.skipWhile p := by
  intro s c
  have hstart := follows_ofList items
  obtain ⟨hanswers, hfollows⟩ := hstart.run calls
  have hfollows : s.Follows c := hfollows
  refine ⟨hanswers, ⟨hfollows.reads.view_eq, hfollows.reads.ahead_eq, hfollows.current_eq⟩, ?_, ?_,
    fun call hcall => hfollows.run_eq (hfollows.looksOnly hcall), fun p => ?_⟩
  · have hvalid : s.taken ≤ s.buffer.size + 1 := by
      rcases hfollows.reads.valid with hle | ⟨htaken, -⟩
      · exact Nat.le_succ_of_le hle
      · exact Nat.le_of_eq htaken
    unfold position
    omega
  · rw [hstart.cuts_append calls, view_ofList, ahead_ofList, List.nil_append]
  · simp [skipUntil_eq_skipWhile]

/-- An item is refused and read after all. -/
theorem answers_eq_cursor_refused :
    let s := ((ofList [1, 2]).run [.next]).2
    s.LooksOnly (.acceptIf (· == 3)) ∧
      ((s.call (.acceptIf (· == 3))).2.run [.current, .next, .next, .current]).1 =
        [.item (some 1), .item (some 2), .item none, .item none] := by
  have hrefused : ((ofList [1, 2]).run [.next]).2.LooksOnly (.acceptIf (· == 3)) := rfl
  have hlooks := (answers_eq_cursor [1, 2] [.next]).2.2.2.2.1 _ hrefused
  exact ⟨hrefused, hlooks [.current, .next, .next, .current]⟩

end Scanner

end ScopedLisp
