import ScopedLisp.Proofs.Cursor

/-!
# Scanners over a producer

A scanner holds the rest of its source as a list. Where the items come from a producer, such as
tokens that are read off a text, an item is there only once it has been asked for, and asking
changes the producer. `Pulled` is the scanner over a producer.

If the producer yields the items of a list and then none for ever, nobody can tell the difference
(`Matches`). What is left of it is `answers_getElem?`: however looks ahead and steps are mixed, an
answer depends on the number of steps before it only.
-/

namespace ScopedLisp

variable {σ α : Type} {pull : σ → Option α × σ} {source : σ} {items : List α}

/-! ## Producers -/

/-- What a producer answers when it is asked for the `n`-th time, counted from zero. -/
def produced (pull : σ → Option α × σ) (source : σ) : Nat → Option α
  | 0 => (pull source).1
  | n + 1 => produced pull (pull source).2 n

/-- The producer gives these items in order, and after them none for ever. -/
def Yields (pull : σ → Option α × σ) (source : σ) (items : List α) : Prop :=
  ∀ n, produced pull source n = items[n]?

theorem Yields.head (h : Yields pull source items) : (pull source).1 = items.head? := by
  rw [List.head?_eq_getElem?]
  exact h 0

theorem Yields.tail (h : Yields pull source items) : Yields pull (pull source).2 items.tail := by
  intro n
  rw [List.getElem?_tail]
  exact h (n + 1)

/-! ## The scanner -/

/-- A producer with what has been pulled from it but not yet cut off. -/
structure Pulled (σ α : Type) where
  source : σ
  buffer : Array α
  taken : Nat

/-- A step or a look ahead. -/
inductive Ask where
  | next
  | peek
deriving DecidableEq

namespace Pulled

/-- A scanner that has pulled nothing yet. -/
def ofSource (source : σ) : Pulled σ α := ⟨source, #[], 0⟩

/-- Pulls up to `count` items behind those in the buffer, until there is none. -/
def pullOnto (pull : σ → Option α × σ) (source : σ) (buffer : Array α) : Nat → σ × Array α
  | 0 => (source, buffer)
  | count + 1 =>
    match pull source with
    | (some a, rest) => pullOnto pull rest (buffer.push a) count
    | (none, rest) => (rest, buffer)

/-- The item read last, if the scanner stands on one. -/
def current (s : Pulled σ α) : Option α :=
  if s.taken = 0 then none else s.buffer[s.taken - 1]?

/-- One step forward, at most to the place past the end. -/
def advance (pull : σ → Option α × σ) (s : Pulled σ α) : Pulled σ α :=
  let filled := pullOnto pull s.source s.buffer (s.taken + 1 - s.buffer.size)
  ⟨filled.1, filled.2, min (s.taken + 1) (filled.2.size + 1)⟩

/-- The answer, and the scanner after it; a look ahead leaves the item in the buffer. -/
def ask (pull : σ → Option α × σ) (s : Pulled σ α) : Ask → Option α × Pulled σ α
  | .next => ((s.advance pull).current, s.advance pull)
  | .peek => ((s.advance pull).current, { s.advance pull with taken := s.taken })

/-- The answers to one after the other. -/
def answers (pull : σ → Option α × σ) (s : Pulled σ α) : List Ask → List (Option α)
  | [] => []
  | a :: asks => (s.ask pull a).1 :: answers pull (s.ask pull a).2 asks

theorem length_answers (s : Pulled σ α) (asks : List Ask) :
    (s.answers pull asks).length = asks.length := by
  induction asks generalizing s with
  | nil => rfl
  | cons a asks ih => rw [answers, List.length_cons, ih, List.length_cons]

/-! ## The scanner over the list -/

variable {s : Pulled σ α} {t : Scanner α} {view rest : List α}

/-- The two have pulled the same, and are to pull the same. -/
structure Matches (pull : σ → Option α × σ) (s : Pulled σ α) (t : Scanner α) : Prop where
  buffer_eq : s.buffer = t.buffer
  taken_eq : s.taken = t.taken
  yields : Yields pull s.source t.source

theorem matches_ofSource (h : Yields pull source items) :
    (ofSource source).Matches pull (.ofList items) :=
  ⟨rfl, rfl, h⟩

theorem pullOnto_eq (h : Yields pull source items) (buffer : Array α) (count : Nat) :
    (pullOnto pull source buffer count).2 = buffer ++ (items.take count).toArray ∧
      Yields pull (pullOnto pull source buffer count).1 (items.drop count) := by
  induction count generalizing source items buffer with
  | zero => simpa [pullOnto] using h
  | succ count ih =>
    have hhead := h.head
    have htail := h.tail
    rw [pullOnto]
    cases items with
    | nil =>
      split
      · next hpull => rw [hpull] at hhead; cases hhead
      · next hpull =>
        rw [hpull] at htail
        exact ⟨by simp, htail⟩
    | cons a items =>
      split
      · next hpull =>
        rw [hpull] at hhead htail
        obtain rfl := Option.some.inj hhead
        obtain ⟨hbuffer, hyields⟩ := ih htail (buffer.push _)
        exact ⟨by simp [hbuffer], hyields⟩
      · next hpull => rw [hpull] at hhead; cases hhead

theorem Matches.advance (h : s.Matches pull t) : (s.advance pull).Matches pull t.advance := by
  obtain ⟨hbuffer, hyields⟩ := pullOnto_eq h.yields s.buffer (s.taken + 1 - s.buffer.size)
  rw [h.buffer_eq, h.taken_eq] at hbuffer hyields
  refine ⟨?_, ?_, ?_⟩
  · rw [Pulled.advance, h.buffer_eq, h.taken_eq, hbuffer]
    rfl
  · rw [Pulled.advance, h.buffer_eq, h.taken_eq, hbuffer]
    rfl
  · rw [Pulled.advance, h.buffer_eq, h.taken_eq]
    exact hyields

theorem Matches.current (h : s.Matches pull t) : s.current = t.current := by
  rw [Pulled.current, h.buffer_eq, h.taken_eq]
  rfl

/-- A step and a look ahead both answer the item ahead, but only a step takes it. -/
theorem Matches.ask (h : s.Matches pull t) (hreads : t.Reads view rest) (a : Ask) :
    (s.ask pull a).1 = rest.head? ∧ ∃ t' view', (s.ask pull a).2.Matches pull t' ∧
      t'.Reads view' (rest.drop ([a].count .next)) := by
  have hanswer : (s.advance pull).current = rest.head? := by
    rw [h.advance.current]
    exact hreads.peek.1
  cases a with
  | peek =>
    refine ⟨hanswer, t.peek.2, view, ⟨h.advance.buffer_eq, h.taken_eq, h.advance.yields⟩, ?_⟩
    exact hreads.peek.2
  | next =>
    refine ⟨hanswer, t.advance, ?_⟩
    cases rest with
    | nil => exact ⟨view, h.advance, hreads.advance_nil.2⟩
    | cons b rest => exact ⟨view ++ [b], h.advance, hreads.advance_cons.2⟩

theorem Matches.answers_getElem? (h : s.Matches pull t) (hreads : t.Reads view rest)
    {asks : List Ask} {i : Nat} (hi : i < asks.length) :
    (s.answers pull asks)[i]? = some rest[(asks.take i).count .next]? := by
  induction asks generalizing s t view rest i with
  | nil => exact absurd hi (Nat.not_lt_zero i)
  | cons a asks ih =>
    obtain ⟨hanswer, t', view', hmatches, hreads'⟩ := h.ask hreads a
    rw [answers]
    cases i with
    | zero =>
      rw [List.getElem?_cons_zero, hanswer, List.head?_eq_getElem?]
      rfl
    | succ i =>
      rw [List.getElem?_cons_succ, ih hmatches hreads' (Nat.lt_of_succ_lt_succ hi),
        List.getElem?_drop, ← List.count_append]
      rfl

end Pulled

/-- **What a producer yields is what its scanner answers**, one item for each step. -/
theorem Yields.answers_getElem? (h : Yields pull source items) {asks : List Ask} {i : Nat}
    (hi : i < asks.length) :
    ((Pulled.ofSource source).answers pull asks)[i]? =
      some items[(asks.take i).count .next]? :=
  (Pulled.matches_ofSource h).answers_getElem? (Scanner.reads_ofList items) hi

end ScopedLisp
