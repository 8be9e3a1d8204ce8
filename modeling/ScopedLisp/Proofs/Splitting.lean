import ScopedLisp.Proofs.Pulled
import ScopedLisp.Proofs.Spacing

/-!
# Tokens by splitting at blanks

The shortest way to say what the tokens of a text are: put a space on both sides of every
parenthesis, split at the blanks, and forget what is empty. `padded` and `chunks` say it, and
`tokens_eq_chunks` that the tokenizer, which looks one character ahead and never goes back, finds
the same tokens.

Tokens are asked for one at a time. The tokenizer is a producer that yields them
(`yields_tokens`), so a scanner over it answers as one over the list of tokens.
-/

namespace ScopedLisp

open Text

namespace Token

/-- The text with a space on both sides of every parenthesis. -/
def padded (cs : List Char) : List Char :=
  cs.flatMap fun c => if c = '(' ∨ c = ')' then [' ', c, ' '] else [c]

/-- What stands between blanks, where that is not empty. -/
def chunks (cs : List Char) : List (List Char) :=
  (cs.splitOnP isBlank).filter fun chunk => !chunk.isEmpty

/-- The token that a chunk of a padded text is. -/
def ofChunk (chunk : List Char) : Token :=
  if chunk = ['('] then opening else if chunk = [')'] then closing else atom (String.ofList chunk)

/-! ## Chunks -/

theorem isDelimiter_eq_false_iff {c : Char} :
    isDelimiter c = false ↔ isBlank c = false ∧ c ≠ '(' ∧ c ≠ ')' := by
  simp [isDelimiter, and_assoc]

theorem padded_paren {c : Char} (hc : c = '(' ∨ c = ')') (cs : List Char) :
    padded (c :: cs) = ' ' :: c :: ' ' :: padded cs := by
  simp [padded, hc]

theorem padded_cons {c : Char} (hc : ¬ (c = '(' ∨ c = ')')) (cs : List Char) :
    padded (c :: cs) = c :: padded cs := by
  simp [padded, hc]

/-- A blank belongs to no chunk. -/
theorem chunks_append_blank {c : Char} (hc : isBlank c = true) (a b : List Char) :
    chunks (a ++ c :: b) = chunks a ++ chunks b := by
  rw [chunks, List.splitOnP_append_cons a b hc, List.filter_append, chunks, chunks]

theorem chunks_of_not_blank {cs : List Char} (h : ∀ c ∈ cs, isBlank c = false) :
    chunks cs = if cs.isEmpty then [] else [cs] := by
  rw [chunks, List.splitOnP_eq_singleton h]
  cases cs <;> rfl

/-- The chunk that has been begun is the atom that has been begun. -/
theorem map_ofChunk_begun {begun : List Char} (h : IsWord begun) :
    (chunks begun.reverse).map ofChunk = flush begun := by
  have hword := h.reverse
  rw [chunks_of_not_blank fun c hc => (isDelimiter_eq_false_iff.mp (hword c hc)).1]
  unfold flush
  cases begun with
  | nil => rfl
  | cons c begun =>
    -- a chunk that is a parenthesis would be no word
    have hopening : (c :: begun).reverse ≠ ['('] := by
      intro heq
      exact (isDelimiter_eq_false_iff.mp (hword '(' (by simp [heq]))).2.1 rfl
    have hclosing : (c :: begun).reverse ≠ [')'] := by
      intro heq
      exact (isDelimiter_eq_false_iff.mp (hword ')' (by simp [heq]))).2.2 rfl
    have hchunk : ofChunk (c :: begun).reverse = atom (String.ofList (c :: begun).reverse) := by
      rw [ofChunk, if_neg hopening, if_neg hclosing]
    rw [if_neg (by simp), if_neg (by simp), List.map_cons, List.map_nil, hchunk]

theorem chunks_paren {c : Char} (hc : c = '(' ∨ c = ')') :
    (chunks [c]).map ofChunk = ofDelimiter c := by
  rcases hc with rfl | rfl <;> decide

/-- The pass over a text, with what has been begun before it, finds the chunks. -/
theorem lexFrom_eq_chunks {begun : List Char} (h : IsWord begun) (cs : List Char) :
    lexFrom begun cs = (chunks (begun.reverse ++ padded cs)).map ofChunk := by
  induction cs generalizing begun with
  | nil =>
    rw [lexFrom_nil, ← map_ofChunk_begun h]
    simp [padded]
  | cons c cs ih =>
    have hrest : lexFrom [] cs = (chunks (padded cs)).map ofChunk := ih isWord_nil
    by_cases hparen : c = '(' ∨ c = ')'
    · have hdelimiter : isDelimiter c = true := by rcases hparen with rfl | rfl <;> decide
      calc lexFrom begun (c :: cs)
          = flush begun ++ ofDelimiter c ++ lexFrom [] cs := lexFrom_delimiter hdelimiter begun cs
        _ = (chunks begun.reverse ++ (chunks [c] ++ chunks (padded cs))).map ofChunk := by
          rw [List.map_append, List.map_append, map_ofChunk_begun h, chunks_paren hparen, hrest,
            List.append_assoc]
        _ = (chunks (begun.reverse ++ padded (c :: cs))).map ofChunk := by
          have hsplit := chunks_append_blank (c := ' ') (by decide) [c] (padded cs)
          rw [padded_paren hparen, chunks_append_blank (by decide), ← hsplit]
          rfl
    · rw [padded_cons hparen]
      by_cases hblank : isBlank c = true
      · rw [lexFrom_delimiter (isDelimiter_of_isBlank hblank), ofDelimiter_of_isBlank hblank,
          chunks_append_blank hblank, List.map_append, map_ofChunk_begun h, hrest, List.append_nil]
      · have hc : isDelimiter c = false :=
          isDelimiter_eq_false_iff.mpr ⟨by simpa using hblank, not_or.mp hparen⟩
        have hbegun : IsWord (c :: begun) := List.forall_mem_cons.mpr ⟨hc, h⟩
        rw [lexFrom, if_neg (by simp [hc]), ih hbegun]
        simp

theorem tokens_eq_chunks (source : String) :
    tokens source = (chunks (padded source.toList)).map ofChunk := by
  rw [tokens_eq_lexFrom]
  exact lexFrom_eq_chunks isWord_nil source.toList

/-! ## One token at a time -/

theorem yields_lexFrom {s : Scanner Char} {view rest : List Char} (h : s.Reads view rest) :
    Yields next? s (lexFrom [] rest) := by
  intro n
  induction n generalizing s view rest with
  | zero =>
    rw [← List.head?_eq_getElem?]
    exact (next?_reads h).1
  | succ n ih =>
    obtain ⟨-, ahead, hreads, htail⟩ := next?_reads h
    rw [produced, ih hreads, htail, List.getElem?_tail]

/-- The tokenizer of a text, with the buffer through which its tokens are asked for. -/
def stream (source : String) : Pulled (Scanner Char) Token :=
  .ofSource (.ofList source.toList)

theorem yields_tokens (source : String) :
    Yields next? (Scanner.ofList source.toList) (tokens source) := by
  rw [tokens_eq_lexFrom]
  exact yields_lexFrom (Scanner.reads_ofList _)

/-- An answer from the tokenizer is the token that is due after the steps before it. -/
theorem answers_stream (source : String) {asks : List Ask} {i : Nat} (hi : i < asks.length) :
    ((stream source).answers next? asks)[i]? =
      some (tokens source)[(asks.take i).count .next]? :=
  (yields_tokens source).answers_getElem? hi

/-- Asked for one token more than there are, the tokenizer gives all of them and then none. -/
theorem answers_stream_replicate (source : String) :
    (stream source).answers next? (List.replicate ((tokens source).length + 1) .next) =
      (tokens source).map some ++ [none] := by
  apply List.ext_getElem
  · simp [Pulled.length_answers]
  · intro i hleft hright
    have hi : i < (List.replicate ((tokens source).length + 1) Ask.next).length := by
      rwa [Pulled.length_answers] at hleft
    have hle : i ≤ (tokens source).length := by
      rw [List.length_replicate] at hi
      exact Nat.le_of_lt_succ hi
    have hsteps : ((List.replicate ((tokens source).length + 1) Ask.next).take i).count .next = i := by
      rw [List.take_replicate, List.count_replicate_self, Nat.min_eq_left (Nat.le_succ_of_le hle)]
    have hanswer := answers_stream source hi
    rw [hsteps, List.getElem?_eq_getElem hleft] at hanswer
    rw [Option.some.inj hanswer]
    rcases Nat.lt_or_eq_of_le hle with hlt | rfl
    · rw [List.getElem_append_left (by simpa using hlt), List.getElem_map,
        List.getElem?_eq_getElem hlt]
    · simp

/-- Steps only go forward, so an answer that there is no token is the last word. -/
theorem answers_stream_none (source : String) {asks : List Ask} {i j : Nat} (hij : i ≤ j)
    (hj : j < asks.length) (hnone : ((stream source).answers next? asks)[i]? = some none) :
    ((stream source).answers next? asks)[j]? = some none := by
  rw [answers_stream source (Nat.lt_of_le_of_lt hij hj), Option.some_inj,
    List.getElem?_eq_none_iff] at hnone
  rw [answers_stream source hj, Option.some_inj, List.getElem?_eq_none_iff]
  have hmono : (asks.take i).count .next ≤ (asks.take j).count .next :=
    (List.take_sublist_take_left hij).count_le Ask.next
  exact hnone.trans hmono

/-- **The tokens of a text are its pieces between blanks**, a space having been put around every
parenthesis. So they are answered, whoever asks and however often he looks ahead; so atoms are free
of what separates them, and texts can be joined by blanks. -/
theorem tokens_split (source : String) :
    tokens source = (chunks (padded source.toList)).map ofChunk ∧
    (stream source).answers next? (List.replicate ((tokens source).length + 1) .next) =
      (tokens source).map some ++ [none] ∧
    (∀ asks i, i < asks.length → ((stream source).answers next? asks)[i]? =
      some (tokens source)[(asks.take i).count .next]?) ∧
    (∀ asks i j, i ≤ j → j < asks.length →
      ((stream source).answers next? asks)[i]? = some none →
      ((stream source).answers next? asks)[j]? = some none) ∧
    (∀ text, atom text ∈ tokens source →
      text ≠ "" ∧ ∀ c ∈ text.toList, isBlank c = false ∧ c ≠ '(' ∧ c ≠ ')') ∧
    ∀ blanks other, blanks ≠ "" → AllBlank blanks.toList →
      tokens (source ++ blanks ++ other) = tokens source ++ tokens other := by
  refine ⟨tokens_eq_chunks source, answers_stream_replicate source, fun _ _ => answers_stream source,
    fun _ _ _ => answers_stream_none source, fun text htext => ?_,
    fun blanks other hne hblanks => tokens_separated hne hblanks source other⟩
  obtain ⟨hne, hword⟩ := atom_mem_tokens htext
  exact ⟨hne, fun c hc => isDelimiter_eq_false_iff.mp (hword c hc)⟩

/-- A blank that is no ASCII character, and a look ahead on both sides of a step. -/
theorem tokens_split_no_break_space :
    tokens ("a(" ++ "\u00a0" ++ ")b") = [.atom "a", .opening, .closing, .atom "b"] ∧
      ((stream "a(").answers next? [.peek, .next, .peek])[2]? = some (some .opening) ∧
      ((stream "a(").answers next? [.next, .next, .next, .peek])[3]? = some none ∧
      ("a" ≠ "" ∧ ∀ c ∈ "a".toList, isBlank c = false ∧ c ≠ '(' ∧ c ≠ ')') := by
  have hsource : tokens "a(" = [.atom "a", .opening] := by
    rw [tokens_eq_lexFrom]
    decide
  have hother : tokens ")b" = [.closing, .atom "b"] := by
    rw [tokens_eq_lexFrom]
    decide
  obtain ⟨-, -, hanswers, hnone, hatom, hjoin⟩ := tokens_split "a("
  have hend : ((stream "a(").answers next? [.next, .next, .next, .peek])[2]? = some none := by
    rw [hanswers _ 2 (by decide), hsource]
    rfl
  refine ⟨?_, ?_, hnone _ 2 3 (by decide) (by decide) hend, hatom "a" ?_⟩
  · rw [hjoin "\u00a0" ")b" (by decide) (by decide), hsource, hother]
    rfl
  · rw [hanswers _ 2 (by decide), hsource]
    rfl
  · rw [hsource]
    exact List.mem_cons_self

end Token

end ScopedLisp
