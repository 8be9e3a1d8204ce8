/-!
# A buffered scanner

A scanner reads a finite source item by item and can step back over anything it has read since
the last cut. It holds what it has pulled from the source in a buffer and counts how many of
those items are taken:

* the **view** is the taken part of the buffer, the items read since the last cut;
* what is **ahead** is the rest of the buffer followed by the rest of the source;
* one step beyond the last item the scanner is **past the end**: the count is then one more than
  the buffer holds, and there is no current item.

Looking ahead pulls from the source but takes nothing. `ignore` and `extract` are the cuts: they
drop the view, and the next item starts a new one.

The loops stop because every item they take shortens what is ahead (`ahead_next_lt`).
-/

namespace ScopedLisp

/-- A source with the part of it that has been pulled but not yet cut off. -/
structure Scanner (α : Type) where
  source : List α
  buffer : Array α
  taken : Nat

namespace Scanner

variable {α : Type}

/-- A scanner that has read nothing of `items`. -/
def ofList (items : List α) : Scanner α := ⟨items, #[], 0⟩

/-- The items read since the last cut. -/
def view (s : Scanner α) : List α := s.buffer.toList.take s.taken

/-- The items not yet read. -/
def ahead (s : Scanner α) : List α := s.buffer.toList.drop s.taken ++ s.source

/-- The item read last, if the scanner stands on one. -/
def current (s : Scanner α) : Option α :=
  if s.taken = 0 then none else s.buffer[s.taken - 1]?

/-- Pulls from the source until the buffer holds `count` items or the source ends. -/
def fill (s : Scanner α) (count : Nat) : Scanner α :=
  let missing := count - s.buffer.size
  { s with buffer := s.buffer ++ (s.source.take missing).toArray, source := s.source.drop missing }

/-- One step forward, at most to the place past the end. -/
def advance (s : Scanner α) : Scanner α :=
  let filled := s.fill (s.taken + 1)
  { filled with taken := min (s.taken + 1) (filled.buffer.size + 1) }

/-- Reads one item. -/
def next (s : Scanner α) : Option α × Scanner α :=
  let t := s.advance
  (t.current, t)

/-- The next item without taking it; it stays in the buffer. -/
def peek (s : Scanner α) : Option α × Scanner α :=
  let here := s.taken
  let t := s.advance
  (t.current, { t with taken := here })

/-- Drops the view. -/
def ignore (s : Scanner α) : Scanner α :=
  { s with buffer := s.buffer.drop s.taken, taken := 0 }

/-- The view, and the scanner after dropping it. -/
def extract (s : Scanner α) : List α × Scanner α := (s.view, s.ignore)

/-- Takes the next item if it satisfies `p`, else stays in place. -/
def acceptIf (p : α → Bool) (s : Scanner α) : Option α × Scanner α :=
  let here := s.taken
  match s.next with
  | (some a, t) => if p a then (some a, t) else (none, { t with taken := here })
  | (none, t) => (none, { t with taken := here })

/-! ## What is ahead shrinks -/

@[simp] theorem view_ofList (items : List α) : (ofList items).view = [] := by
  simp [ofList, view]

@[simp] theorem ahead_ofList (items : List α) : (ofList items).ahead = items := by
  simp [ofList, ahead]

@[simp] theorem view_ignore (s : Scanner α) : s.ignore.view = [] := by
  simp [ignore, view]

@[simp] theorem ahead_ignore (s : Scanner α) : s.ignore.ahead = s.ahead := by
  simp [ignore, ahead, List.take_of_length_le]

/-- Pulling what has been pulled already changes nothing. -/
theorem fill_fill (s : Scanner α) (count : Nat) : (s.fill count).fill count = s.fill count := by
  rcases Nat.le_total (count - s.buffer.size) s.source.length with h | h
  · have hsize : count - (s.buffer.size + (count - s.buffer.size)) = 0 := by omega
    simp [fill, Nat.min_eq_left h, hsize]
  · simp [fill, List.drop_eq_nil_of_le h]

/-- A look ahead does not change where the next step leads. -/
theorem advance_peek (s : Scanner α) : s.peek.2.advance = s.advance := by
  have h := fill_fill s (s.taken + 1)
  simp only [peek, advance]
  simp only [fill] at h ⊢
  simp only [Scanner.mk.injEq] at h
  obtain ⟨hsource, hbuffer, -⟩ := h
  simp only [hsource, hbuffer]

/-- Stepping onto an item takes at least that item from what was ahead. -/
theorem ahead_advance_lt {s : Scanner α} {a : α} (h : s.advance.current = some a) :
    s.advance.ahead.length < s.ahead.length := by
  have hsize : s.advance.taken ≤ s.advance.buffer.size := by
    simp only [current] at h
    split at h
    · simp at h
    · have := (Array.getElem?_eq_some_iff.mp h).1
      omega
  simp only [advance, fill, Array.size_append, List.size_toArray, List.length_take] at hsize
  simp only [ahead, advance, fill, List.length_append, List.length_drop, Array.length_toList,
    Array.size_append, List.size_toArray, List.length_take]
  omega

/-- A look ahead, or a step that is taken back, leaves nothing more to read. -/
theorem ahead_peek_le (s : Scanner α) : s.peek.2.ahead.length ≤ s.ahead.length := by
  simp only [peek, ahead, advance, fill, List.length_append, List.length_drop,
    Array.length_toList, Array.size_append, List.size_toArray, List.length_take]
  omega

theorem acceptIf_eq (p : α → Bool) (s : Scanner α) :
    s.acceptIf p =
      match s.advance.current with
      | some a => if p a then (some a, s.advance) else (none, s.peek.2)
      | none => (none, s.peek.2) := by
  simp only [acceptIf, next, peek]
  cases s.advance.current <;> rfl

theorem ahead_acceptIf_lt {p : α → Bool} {s t : Scanner α} {a : α}
    (h : s.acceptIf p = (some a, t)) : t.ahead.length < s.ahead.length := by
  rw [acceptIf_eq] at h
  cases hc : s.advance.current with
  | none => simp [hc] at h
  | some b =>
    simp only [hc] at h
    split at h
    · cases h
      exact ahead_advance_lt hc
    · simp at h

theorem ahead_acceptIf_le {p : α → Bool} {s t : Scanner α} {r : Option α}
    (h : s.acceptIf p = (r, t)) : t.ahead.length ≤ s.ahead.length := by
  cases r with
  | some a => exact Nat.le_of_lt (ahead_acceptIf_lt h)
  | none =>
    rw [acceptIf_eq] at h
    cases hc : s.advance.current with
    | none => simp only [hc, Prod.mk.injEq] at h; exact h.2 ▸ ahead_peek_le s
    | some b =>
      simp only [hc] at h
      split at h
      · simp at h
      · simp only [Prod.mk.injEq] at h; exact h.2 ▸ ahead_peek_le s

/-! ## Runs of items -/

/-- Takes items as long as they satisfy `p`; whether there was one. -/
def skipWhile (p : α → Bool) (s : Scanner α) : Bool × Scanner α :=
  match _h : s.acceptIf p with
  | (some _, t) => (true, (t.skipWhile p).2)
  | (none, t) => (false, t)
termination_by s.ahead.length
decreasing_by exact ahead_acceptIf_lt _h

/-- Takes items up to the first one that satisfies `p`, or all of them; whether there was one. -/
def skipUntil (p : α → Bool) (s : Scanner α) : Bool × Scanner α :=
  match _h : s.peek with
  | (some a, t) => if p a then (false, t) else (true, (t.advance.skipUntil p).2)
  | (none, t) => (false, t)
termination_by s.ahead.length
decreasing_by
  have hpeek : s.advance.current = some a := congrArg Prod.fst _h
  have ht : t = s.peek.2 := (congrArg Prod.snd _h).symm
  subst ht
  rw [advance_peek]
  exact ahead_advance_lt hpeek

theorem ahead_skipWhile_le (p : α → Bool) (s : Scanner α) :
    (s.skipWhile p).2.ahead.length ≤ s.ahead.length := by
  fun_induction skipWhile p s with
  | case1 s a t h ih => exact Nat.le_trans ih (Nat.le_of_lt (ahead_acceptIf_lt h))
  | case2 s t h => exact ahead_acceptIf_le h

theorem ahead_skipUntil_le (p : α → Bool) (s : Scanner α) :
    (s.skipUntil p).2.ahead.length ≤ s.ahead.length := by
  fun_induction skipUntil p s with
  | case1 s a t h hp => exact congrArg Prod.snd h ▸ ahead_peek_le s
  | case2 s a t h hp ih =>
    have ht : t.advance = s.advance := by rw [← advance_peek s, h]
    show (t.advance.skipUntil p).2.ahead.length ≤ _
    rw [ht] at ih ⊢
    exact Nat.le_trans ih (Nat.le_of_lt (ahead_advance_lt (congrArg Prod.fst h)))
  | case3 s t h => exact congrArg Prod.snd h ▸ ahead_peek_le s

/-- A run that is not empty shortens what is ahead. -/
theorem ahead_skipUntil_lt {p : α → Bool} {s : Scanner α} (h : (s.skipUntil p).1 = true) :
    (s.skipUntil p).2.ahead.length < s.ahead.length := by
  rw [skipUntil] at h ⊢
  split at h
  · next a t hpeek =>
    split at h
    · simp at h
    · next hp =>
      have ht : t.advance = s.advance := by rw [← advance_peek s, hpeek]
      simp only [hp, ht]
      exact Nat.lt_of_le_of_lt (ahead_skipUntil_le p _)
        (ahead_advance_lt (congrArg Prod.fst hpeek))
  · simp at h

end Scanner

end ScopedLisp
