import ScopedLisp.Scanner.Text

/-!
# The scanner is a cursor

What a scanner answers depends on two lists only: its view, and what is ahead of it. How much of
the latter has been pulled into the buffer already cannot be told from outside.

`Reads s view rest` says that `s` stands between `view` and `rest`. Each operation has one lemma
here that takes such a state to the next one; after this file no proof opens a scanner again.

The buffer alone does not determine where a scanner stands: a count beyond the buffer would skip
items of the source. No operation leads there, and `Valid` says so.
-/

namespace ScopedLisp.Scanner

variable {α : Type} {s : Scanner α} {view rest : List α}

/-- The count stands in the buffer, or one beyond it when the source has ended. -/
def Valid (s : Scanner α) : Prop :=
  s.taken ≤ s.buffer.size ∨ s.taken = s.buffer.size + 1 ∧ s.source = []

/-- The scanner stands behind `view` and in front of `rest`. -/
structure Reads (s : Scanner α) (view rest : List α) : Prop where
  valid : s.Valid
  view_eq : s.view = view
  ahead_eq : s.ahead = rest

theorem reads_ofList (items : List α) : (ofList items).Reads [] items :=
  ⟨Or.inl (Nat.zero_le _), view_ofList items, ahead_ofList items⟩

/-! ## One step -/

theorem Reads.advance_nil (h : s.Reads view []) :
    s.advance.current = none ∧ s.advance.Reads view [] := by
  obtain ⟨source, buffer, taken⟩ := s
  obtain ⟨hvalid, hview, hahead⟩ := h
  simp only [ahead, List.append_eq_nil_iff, List.drop_eq_nil_iff, Array.length_toList] at hahead
  obtain ⟨hle, rfl⟩ := hahead
  have hmin : min (taken + 1) (buffer.size + 1) = buffer.size + 1 := by omega
  have hadv : (⟨[], buffer, taken⟩ : Scanner α).advance = ⟨[], buffer, buffer.size + 1⟩ := by
    simp [advance, fill, hmin]
  have htake : buffer.toList.take taken = buffer.toList.take (buffer.size + 1) := by
    rw [List.take_of_length_le (by simpa using hle),
      List.take_of_length_le (by simp)]
  rw [hadv]
  refine ⟨by simp [current], Or.inr ⟨rfl, rfl⟩, ?_, by simp [ahead]⟩
  rw [← hview]
  exact htake.symm

theorem Reads.advance_cons {a : α} (h : s.Reads view (a :: rest)) :
    s.advance.current = some a ∧ s.advance.Reads (view ++ [a]) rest := by
  obtain ⟨source, buffer, taken⟩ := s
  obtain ⟨hvalid, hview, hahead⟩ := h
  simp only [ahead] at hahead
  simp only [Scanner.view] at hview
  rcases Nat.lt_or_ge taken buffer.size with hlt | hge
  · -- the item has been pulled before
    have hmissing : taken + 1 - buffer.size = 0 := by omega
    have hmin : min (taken + 1) (buffer.size + 1) = taken + 1 := by omega
    have hadv : (⟨source, buffer, taken⟩ : Scanner α).advance = ⟨source, buffer, taken + 1⟩ := by
      simp [advance, fill, hmissing, hmin]
    have hdrop : buffer.toList.drop taken = buffer[taken] :: buffer.toList.drop (taken + 1) := by
      rw [List.drop_eq_getElem_cons (by simpa using hlt)]
      simp
    rw [hdrop, List.cons_append] at hahead
    obtain ⟨rfl, rfl⟩ := List.cons.inj hahead
    rw [hadv]
    refine ⟨by simp [current, Array.getElem?_eq_getElem hlt], Or.inl hlt, ?_, rfl⟩
    rw [← hview, Scanner.view, List.take_succ_eq_append_getElem (by simpa using hlt)]
    simp
  · -- the item is the first of the source
    have hdrop : buffer.toList.drop taken = [] := List.drop_eq_nil_of_le (by simpa using hge)
    rw [hdrop, List.nil_append] at hahead
    subst hahead
    have htaken : taken = buffer.size := by
      rcases hvalid with hle | ⟨_, hnil⟩
      · exact Nat.le_antisymm hle hge
      · exact absurd hnil (by simp)
    subst htaken
    have hadv : (⟨a :: rest, buffer, buffer.size⟩ : Scanner α).advance =
        ⟨rest, buffer.push a, buffer.size + 1⟩ := by
      simp [advance, fill]
    rw [hadv]
    refine ⟨by simp [current], Or.inl (by simp), ?_, ?_⟩
    · have hall : buffer.toList.take buffer.size = buffer.toList :=
        List.take_of_length_le (by simp)
      rw [← hview, hall]
      simp [Scanner.view, List.take_of_length_le]
    · simp [ahead]

theorem Reads.peek (h : s.Reads view rest) :
    s.peek.1 = rest.head? ∧ s.peek.2.Reads view rest := by
  have hanswer : s.peek.1 = rest.head? := by
    cases rest with
    | nil => exact h.advance_nil.1
    | cons a rest => exact h.advance_cons.1
  refine ⟨hanswer, ?_⟩
  obtain ⟨source, buffer, taken⟩ := s
  obtain ⟨hvalid, hview, hahead⟩ := h
  simp only [Scanner.view] at hview
  simp only [ahead] at hahead
  rcases hvalid with hle | ⟨htaken, hnil⟩
  · have hle : taken ≤ buffer.size := hle
    refine ⟨Or.inl ?_, ?_, ?_⟩
    · simp only [Scanner.peek, advance, fill, Array.size_append]
      omega
    · rw [← hview]
      simp only [Scanner.peek, advance, fill, Scanner.view, Array.toList_append]
      rw [List.take_append_of_le_length (by simpa using hle)]
    · rw [← hahead]
      simp only [Scanner.peek, advance, fill, ahead, Array.toList_append]
      rw [List.drop_append_of_le_length (by simpa using hle), List.append_assoc,
        List.take_append_drop]
  · have hnil : source = [] := hnil
    subst hnil
    refine ⟨Or.inr ⟨by simpa [Scanner.peek, advance, fill] using htaken, ?_⟩, ?_, ?_⟩
    · simp [Scanner.peek, advance, fill]
    · simpa [Scanner.peek, advance, fill, Scanner.view] using hview
    · simpa [Scanner.peek, advance, fill, ahead] using hahead

/-! ## Taking items that satisfy a test -/

theorem Reads.acceptIf_cons {a : α} {p : α → Bool} (h : s.Reads view (a :: rest))
    (hp : p a = true) : ∃ t, s.acceptIf p = (some a, t) ∧ t.Reads (view ++ [a]) rest := by
  obtain ⟨hcurrent, hreads⟩ := h.advance_cons
  exact ⟨s.advance, by simp [acceptIf_eq, hcurrent, hp], hreads⟩

theorem Reads.acceptIf_none {p : α → Bool} (h : s.Reads view rest)
    (hp : ∀ a, rest.head? = some a → p a = false) :
    ∃ t, s.acceptIf p = (none, t) ∧ t.Reads view rest := by
  obtain ⟨hanswer, hreads⟩ := h.peek
  have hcurrent : s.advance.current = rest.head? := hanswer
  refine ⟨s.peek.2, ?_, hreads⟩
  rw [acceptIf_eq, hcurrent]
  cases hrest : rest.head? with
  | none => rfl
  | some a => simp [hp a hrest]

theorem skipWhile_of_accepted {p : α → Bool} {a : α} {t : Scanner α}
    (h : s.acceptIf p = (some a, t)) : s.skipWhile p = (true, (t.skipWhile p).2) := by
  rw [Scanner.skipWhile]
  split
  · next ht =>
    rw [h] at ht
    cases ht
    rfl
  · next ht =>
    rw [h] at ht
    cases ht

theorem skipWhile_of_refused {p : α → Bool} {t : Scanner α} (h : s.acceptIf p = (none, t)) :
    s.skipWhile p = (false, t) := by
  rw [Scanner.skipWhile]
  split
  · next ht =>
    rw [h] at ht
    cases ht
  · next ht =>
    rw [h] at ht
    cases ht
    rfl

/-- Going on until `p` holds is going on while it does not, down to what has been pulled. -/
theorem skipUntil_eq_skipWhile (p : α → Bool) (s : Scanner α) :
    s.skipUntil p = s.skipWhile (!p ·) := by
  fun_induction Scanner.skipUntil p s with
  | case1 s a t hpeek hp =>
    have hcurrent : s.advance.current = some a := congrArg Prod.fst hpeek
    have haccept : s.acceptIf (!p ·) = (none, t) := by
      rw [acceptIf_eq, hcurrent, hpeek]
      simp [hp]
    rw [skipWhile_of_refused haccept]
  | case2 s a t hpeek hp ih =>
    have hcurrent : s.advance.current = some a := congrArg Prod.fst hpeek
    have hadvance : t.advance = s.advance := by rw [← advance_peek s, hpeek]
    have haccept : s.acceptIf (!p ·) = (some a, t.advance) := by
      rw [acceptIf_eq, hcurrent, hadvance]
      simp [hp]
    rw [skipWhile_of_accepted haccept, ih]
  | case3 s t hpeek =>
    have hcurrent : s.advance.current = none := congrArg Prod.fst hpeek
    have haccept : s.acceptIf (!p ·) = (none, t) := by rw [acceptIf_eq, hcurrent, hpeek]
    rw [skipWhile_of_refused haccept]

/-- The longest run of items that satisfy `p` goes to the view. -/
theorem Reads.skipWhile (p : α → Bool) (h : s.Reads view rest) :
    (s.skipWhile p).1 = !(rest.takeWhile p).isEmpty ∧
      (s.skipWhile p).2.Reads (view ++ rest.takeWhile p) (rest.dropWhile p) := by
  induction rest generalizing s view with
  | nil =>
    obtain ⟨t, haccept, hreads⟩ := h.acceptIf_none (p := p) (by simp)
    rw [skipWhile_of_refused haccept]
    exact ⟨by simp, by simpa using hreads⟩
  | cons a rest ih =>
    cases hp : p a with
    | true =>
      obtain ⟨t, haccept, hreads⟩ := h.acceptIf_cons hp
      obtain ⟨-, hrun⟩ := ih hreads
      rw [skipWhile_of_accepted haccept]
      exact ⟨by simp [hp], by simpa [hp] using hrun⟩
    | false =>
      obtain ⟨t, haccept, hreads⟩ := h.acceptIf_none (p := p) (by simpa using hp)
      rw [skipWhile_of_refused haccept]
      exact ⟨by simp [hp], by simpa [hp] using hreads⟩

theorem Reads.skipUntil (p : α → Bool) (h : s.Reads view rest) :
    (s.skipUntil p).1 = !(rest.takeWhile (!p ·)).isEmpty ∧
      (s.skipUntil p).2.Reads (view ++ rest.takeWhile (!p ·)) (rest.dropWhile (!p ·)) := by
  rw [skipUntil_eq_skipWhile]
  exact h.skipWhile (!p ·)

/-! ## Cuts -/

theorem Reads.ignore (h : s.Reads view rest) : s.ignore.Reads [] rest :=
  ⟨Or.inl (Nat.zero_le _), view_ignore s, (ahead_ignore s).trans h.ahead_eq⟩

theorem Reads.ignoreBlanks {s : Scanner Char} {view rest : List Char} (h : s.Reads view rest) :
    s.ignoreBlanks.Reads [] (rest.dropWhile Text.isBlank) :=
  (h.skipWhile Text.isBlank).2.ignore

end ScopedLisp.Scanner
