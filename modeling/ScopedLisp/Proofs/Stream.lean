import ScopedLisp.Proofs.Descent

/-!
# Streams of expressions

Whoever reads one expression after the other off a scanner goes on where the last reading has
stopped, also after an error. So it matters which tokens a reading takes, not only what it answers.
`Takes` lists it for every answer, and `readFrom_takes` derives it from how the readings end.

The loop is `ReadsAll`: as long as a look ahead finds a token, one more expression. Its calls share
the tokens out among them.
-/

namespace ScopedLisp.Reader

/-! ## What one reading takes -/

/-- The tokens that a reading with this answer takes, and those it leaves. -/
inductive Takes : Except ReadError Value → List Token → List Token → Prop
  /-- Up to the first place where as many lists have been closed as opened. -/
  | expression {v : Value} {used left : List Token}
      (h : FirstBalanced 0 (used ++ left) used.length) : Takes (.ok v) used left
  /-- A closing parenthesis, before anything was opened. -/
  | unexpectedClosing {left : List Token} : Takes (.error .unexpectedClosing) [.closing] left
  /-- Up to the first empty atom; the expression had not ended before it. -/
  | emptyAtom {before left : List Token} (hfirst : .atom "" ∉ before)
      (hhead : before.head? ≠ some .closing) (hopen : ∀ k, ¬ FirstBalanced 0 before k) :
      Takes (.error .emptyAtom) (before ++ [.atom ""]) left
  /-- Everything. -/
  | unexpectedEnd {used : List Token} (hopen : ∀ k, ¬ FirstBalanced 0 used k) :
      Takes (.error .unexpectedEnd) used []

theorem readFrom_takes {answer : Except ReadError Value} {used left : List Token}
    (h : readFrom (used ++ left) = (answer, left)) : Takes answer used left := by
  cases answer with
  | ok v =>
    obtain ⟨k, hk, hleft⟩ := readWith_ok_balanced h
    -- what is left is a suffix, so its length tells where it begins
    have hlength := congrArg List.length hleft
    have hle := hk.le_length
    simp only [List.length_drop, List.length_append] at hlength hle
    obtain rfl : k = used.length := by omega
    exact .expression hk
  | error e =>
    cases e with
    | unexpectedClosing =>
      have hsplit := (readWith_unexpectedClosing h).2
      obtain rfl := List.append_cancel_right (hsplit.trans (List.singleton_append).symm)
      exact .unexpectedClosing
    | unexpectedEnd =>
      obtain ⟨rfl, hnone⟩ := readWith_unexpectedEnd h
      rw [List.append_nil] at hnone
      exact .unexpectedEnd hnone
    | trailing text => exact absurd h readWith_ne_trailing
    | emptyAtom =>
      obtain ⟨before, hsplit, hfirst, hnone, hhead⟩ := readWith_emptyAtom h
      have hused : used ++ left = (before ++ [.atom ""]) ++ left := by rw [hsplit]; simp
      obtain rfl := List.append_cancel_right hused
      exact .emptyAtom hfirst (hhead rfl) hnone

theorem Takes.ne_nil {answer : Except ReadError Value} {used left : List Token}
    (h : Takes answer used left) (hne : used ++ left ≠ []) : used ≠ [] := by
  cases h with
  | expression hk => exact List.ne_nil_of_length_pos hk.pos
  | unexpectedClosing => exact List.cons_ne_nil _ _
  | emptyAtom => exact List.append_ne_nil_of_right_ne_nil _ (List.cons_ne_nil _ _)
  | unexpectedEnd => rwa [List.append_nil] at hne

/-- Other tokens behind an expression are left as they are. -/
theorem readFrom_append {v : Value} {used left : List Token}
    (h : readFrom (used ++ left) = (.ok v, left)) (other : List Token) :
    readFrom (used ++ other) = (.ok v, other) := by
  obtain ⟨first, hsplit, hspelled⟩ := readFrom_eq_ok_iff.mp h
  obtain rfl := List.append_cancel_right hsplit
  exact readFrom_eq_ok_iff.mpr ⟨used, rfl, hspelled⟩

variable {s t u : Scanner Token} {view rest : List Token} {answer : Except ReadError Value}

/-- A reading is decided by what is ahead. -/
theorem Descends.of_readFrom {used left : List Token} (hreads : s.Reads view (used ++ left))
    (h : readFrom (used ++ left) = (answer, left)) :
    ∃ t, Descends .expression s answer t ∧ t.Reads (view ++ used) left := by
  obtain ⟨answer', t, hdescends⟩ := (exists_descends _).1 hreads (Nat.lt_succ_self _)
  obtain ⟨used', left', hsplit, hleft, hread⟩ := hdescends.reads hreads
  obtain ⟨rfl, rfl⟩ := Prod.mk.inj (h.symm.trans hread)
  obtain rfl := List.append_cancel_right hsplit
  exact ⟨t, hdescends, hleft⟩

/-! ## The loop -/

/-- A reading of the loop: what it takes off the scanner, and what it answers. -/
structure Reading where
  taken : List Token
  answer : Except ReadError Value

/-- Expression after expression, as long as a look ahead finds a token. What a reading has taken is
what it has brought into view. -/
inductive ReadsAll : Scanner Token → List Reading → Scanner Token → Prop
  | done {s : Scanner Token} (h : s.peek.1 = none) : ReadsAll s [] s.peek.2
  | more {s t u : Scanner Token} {token : Token} {taken : List Token}
      {answer : Except ReadError Value} {readings : List Reading} (h : s.peek.1 = some token)
      (hfirst : Descends .expression s.peek.2 answer t) (htaken : t.view = s.view ++ taken)
      (hothers : ReadsAll t readings u) : ReadsAll s (⟨taken, answer⟩ :: readings) u

theorem exists_readsAll (n : Nat) (hreads : s.Reads view rest) (hlt : rest.length < n) :
    ∃ readings u, ReadsAll s readings u := by
  induction n generalizing s view rest with
  | zero => exact absurd hlt (Nat.not_lt_zero _)
  | succ n ih =>
    obtain ⟨hanswer, hahead⟩ := hreads.peek
    cases rest with
    | nil => exact ⟨_, _, .done hanswer⟩
    | cons token left =>
      obtain ⟨answer, t, hfirst⟩ := (exists_descends _).1 hahead (Nat.lt_succ_self _)
      have hshorter := hfirst.length_lt hahead
      obtain ⟨taken, after, -, hafter, -⟩ := hfirst.reads hahead
      rw [hafter.ahead_eq] at hshorter
      obtain ⟨readings, u, hothers⟩ := ih hafter (by omega)
      have htaken : t.view = s.view ++ taken := by rw [hafter.view_eq, hreads.view_eq]
      exact ⟨_, u, .more hanswer hfirst htaken hothers⟩

/-- The readings take every token, once and in order, and at least one each. -/
theorem ReadsAll.shares {readings : List Reading} (h : ReadsAll s readings u)
    (hreads : s.Reads view rest) :
    (readings.map Reading.taken).flatten = rest ∧ (∀ r ∈ readings, r.taken ≠ []) ∧
      readings.length ≤ rest.length ∧ u.Reads (view ++ rest) [] := by
  induction h generalizing view rest with
  | @done s hpeek =>
    obtain ⟨hanswer, hahead⟩ := hreads.peek
    obtain rfl := List.head?_eq_none_iff.mp (hanswer.symm.trans hpeek)
    exact ⟨rfl, nofun, Nat.le_refl 0, by simpa using hahead⟩
  | @more s t u token taken answer readings hpeek hfirst htaken _ ih =>
    obtain ⟨hanswer, hahead⟩ := hreads.peek
    obtain ⟨used, left, rfl, hleft, hread⟩ := hfirst.reads hahead
    have hused : taken = used := by
      rw [hleft.view_eq, hreads.view_eq] at htaken
      exact (List.append_cancel_left htaken).symm
    have hne : used ++ left ≠ [] := by
      intro hnil
      rw [hnil] at hanswer
      exact absurd (hanswer.symm.trans hpeek) nofun
    have hfirst : used ≠ [] := (readFrom_takes hread).ne_nil hne
    have hpos : 0 < used.length := List.length_pos_iff.mpr hfirst
    obtain ⟨hflatten, hnonempty, hlength, hlast⟩ := ih hleft
    refine ⟨by simp [hused, hflatten], List.forall_mem_cons.mpr ⟨hused ▸ hfirst, hnonempty⟩, ?_,
      by simpa using hlast⟩
    simp only [List.length_cons, List.length_append]
    omega

/-- The loop and one reading more, which finds nothing, give the answers of `readStream`. -/
theorem ReadsAll.readStream {readings : List Reading} (h : ReadsAll s readings u)
    (hreads : s.Reads view rest) :
    Reader.readStream rest = readings.map Reading.answer ++ [.error .unexpectedEnd] := by
  induction h generalizing view rest with
  | @done s hpeek =>
    obtain ⟨hanswer, -⟩ := hreads.peek
    obtain rfl := List.head?_eq_none_iff.mp (hanswer.symm.trans hpeek)
    simp [Reader.readStream, readFrom, Reader.readWith]
  | @more s t u token taken answer readings hpeek hfirst _ _ ih =>
    obtain ⟨hanswer, hahead⟩ := hreads.peek
    obtain ⟨tail, rfl⟩ := List.head?_eq_some_iff.mp (hanswer.symm.trans hpeek)
    obtain ⟨used, left, -, hleft, hread⟩ := hfirst.reads hahead
    rw [Reader.readStream, hread, ih hleft]
    rfl

/-- Rows of tokens that are expressions one by one are read one by one. -/
theorem ReadsAll.of_parts {readings : List Reading} (h : ReadsAll s readings u)
    {parts : List (List Token × Value)}
    (hparts : ∀ part ∈ parts, readFrom part.1 = (.ok part.2, []))
    (hreads : s.Reads view (parts.flatMap Prod.fst)) :
    readings = parts.map fun part => ⟨part.1, .ok part.2⟩ := by
  induction parts generalizing s view readings with
  | nil =>
    cases h with
    | done => rfl
    | more hpeek => exact absurd (hreads.peek.1.symm.trans hpeek) nofun
  | cons part parts ih =>
    have hpart : readFrom (part.1 ++ []) = (.ok part.2, []) := by
      rw [List.append_nil]
      exact hparts part List.mem_cons_self
    have hread := readFrom_append hpart (parts.flatMap Prod.fst)
    have hne : part.1 ≠ [] := by
      intro hnil
      rw [hnil] at hpart
      exact absurd hpart nofun
    cases h with
    | done hpeek =>
      have hnil := List.head?_eq_none_iff.mp (hreads.peek.1.symm.trans hpeek)
      exact absurd (List.append_eq_nil_iff.mp hnil).1 hne
    | more hpeek hfirst htaken hothers =>
      -- the reading is the one of this part, and the loop goes on behind it
      obtain ⟨t, hdescends, hleft⟩ := Descends.of_readFrom hreads.peek.2 hread
      obtain ⟨rfl, rfl⟩ := hfirst.unique hdescends
      rw [hleft.view_eq, hreads.view_eq] at htaken
      obtain rfl := List.append_cancel_left htaken
      rw [ih hothers (fun q hq => hparts q (List.mem_cons_of_mem part hq)) hleft]
      rfl

/-- **Reading a stream neither loses a token nor takes one twice.** A reading takes what belongs to
its answer, and an expression depends on nothing behind it. The loop ends, having taken all tokens
in order and at least one in every round; rows of tokens that are expressions each on its own come
out as those expressions. -/
theorem stream_read (hreads : s.Reads view rest) :
    (∃ answer t, Descends .expression s answer t) ∧
    (∀ answer t, Descends .expression s answer t →
      ∃ used left, rest = used ++ left ∧ t.Reads (view ++ used) left ∧
        readFrom rest = (answer, left) ∧ Takes answer used left ∧
        ∀ v, answer = .ok v → ∀ s' view' other, s'.Reads view' (used ++ other) →
          ∃ t', Descends .expression s' (.ok v) t' ∧ t'.Reads (view' ++ used) other) ∧
    (∃ readings u, ReadsAll s readings u) ∧
    ∀ readings u, ReadsAll s readings u →
      readings.length ≤ rest.length ∧
      ((readings.map Reading.taken).flatten = rest ∧ ∀ r ∈ readings, r.taken ≠ []) ∧
      (u.Reads (view ++ rest) [] ∧ ∃ u', Descends .expression u (.error .unexpectedEnd) u') ∧
      readStream rest = readings.map Reading.answer ++ [.error .unexpectedEnd] ∧
      ∀ parts : List (List Token × Value),
        (∀ part ∈ parts, ∃ t, Descends .expression (.ofList part.1) (.ok part.2) t ∧
          t.ahead = []) →
        rest = parts.flatMap Prod.fst → readings = parts.map fun part => ⟨part.1, .ok part.2⟩ := by
  refine ⟨(exists_descends _).1 hreads (Nat.lt_succ_self _), fun answer t hdescends => ?_,
    exists_readsAll _ hreads (Nat.lt_succ_self _), fun readings u hall => ?_⟩
  · obtain ⟨used, left, rfl, hleft, hread⟩ := hdescends.reads hreads
    refine ⟨used, left, rfl, hleft, hread, readFrom_takes hread, ?_⟩
    rintro v rfl s' view' other hreads'
    exact Descends.of_readFrom hreads' (readFrom_append hread other)
  · obtain ⟨hflatten, hnonempty, hlength, hlast⟩ := hall.shares hreads
    refine ⟨hlength, ⟨hflatten, hnonempty⟩, ⟨hlast, _, .ended hlast.advance_nil.1⟩,
      hall.readStream hreads, fun parts hparts hrest => ?_⟩
    subst hrest
    refine hall.of_parts (fun part hpart => ?_) hreads
    obtain ⟨t, hdescends, hnil⟩ := hparts part hpart
    obtain ⟨used, left, -, hleft, hread⟩ := hdescends.reads (Scanner.reads_ofList part.1)
    rw [hread, ← hleft.ahead_eq, hnil]

/-- Hand-made tokens, read from the second on: a list with an empty atom in it, its closing
parenthesis, which is then one too many, and an expression. -/
theorem stream_read_empty_atom :
    let tokens : List Token := [.opening, .atom "", .closing, .atom "g"]
    let s := (Scanner.ofList (.atom "f" :: tokens)).next.2
    s.Reads [.atom "f"] tokens ∧ ∃ readings u, ReadsAll s readings u ∧
      u.view = .atom "f" :: tokens ∧
      readings.map Reading.answer =
        [.error .emptyAtom, .error .unexpectedClosing, .ok (.symbol "g")] := by
  intro tokens s
  have hreads : s.Reads [.atom "f"] tokens := (Scanner.reads_ofList _).advance_cons.2
  obtain ⟨-, -, ⟨readings, u, hall⟩, hloop⟩ := stream_read hreads
  obtain ⟨-, -, ⟨hlast, -⟩, hanswers, -⟩ := hloop readings u hall
  have hatom : Reader.atom "g" = .ok (.symbol "g") := rfl
  have hstream : readStream tokens =
      [.error .emptyAtom, .error .unexpectedClosing, .ok (.symbol "g")] ++
        [.error .unexpectedEnd] := by
    simp [tokens, readStream, readFrom, readWith, atom_empty, hatom]
  exact ⟨hreads, readings, u, hall, hlast.view_eq,
    List.append_cancel_right (hanswers.symm.trans hstream)⟩

end ScopedLisp.Reader
