import Mathlib.Data.List.TakeWhile
import ScopedLisp.Proofs.Cursor
import ScopedLisp.Token

/-!
# Tokens of a text, in one pass

The tokenizer reads through a scanner with look-ahead. What it reads is told here by one
structural pass over the characters, `lexFrom`, which carries the atom that has been begun.

The equation from which everything else about tokens follows is `lexFrom_append`: a delimiter
ends the atom before it and begins nothing itself, so a text may be taken apart there. That is
why texts can be joined by blanks or put between parentheses without merging or splitting any of
their tokens.
-/

namespace ScopedLisp

open Text

namespace Token

/-- Nothing but blanks. -/
def AllBlank (cs : List Char) : Prop := ∀ c ∈ cs, isBlank c = true

/-- Nothing that ends an atom. -/
def IsWord (cs : List Char) : Prop := ∀ c ∈ cs, isDelimiter c = false

instance (cs : List Char) : Decidable (AllBlank cs) :=
  List.decidableBAll (fun c => isBlank c = true) cs

instance (cs : List Char) : Decidable (IsWord cs) :=
  List.decidableBAll (fun c => isDelimiter c = false) cs

/-- The atom that has been begun, its characters in reverse. -/
def flush (begun : List Char) : List Token :=
  if begun.isEmpty then [] else [atom (String.ofList begun.reverse)]

/-- The token that a delimiter is on its own: a blank is none. -/
def ofDelimiter (c : Char) : List Token :=
  if c = '(' then [opening] else if c = ')' then [closing] else []

/-- The tokens of a text in front of which an atom has been begun. -/
def lexFrom (begun : List Char) : List Char → List Token
  | [] => flush begun
  | c :: rest =>
    if isDelimiter c then flush begun ++ ofDelimiter c ++ lexFrom [] rest
    else lexFrom (c :: begun) rest

theorem allBlank_nil : AllBlank [] := by simp [AllBlank]

theorem isWord_nil : IsWord [] := by simp [IsWord]

theorem IsWord.reverse {cs : List Char} (h : IsWord cs) : IsWord cs.reverse :=
  fun c hc => h c (List.mem_reverse.mp hc)

@[simp] theorem flush_nil : flush [] = [] := rfl

@[simp] theorem lexFrom_nil (begun : List Char) : lexFrom begun [] = flush begun := rfl

theorem ofDelimiter_of_isBlank {c : Char} (h : isBlank c = true) : ofDelimiter c = [] := by
  have hopen : c ≠ '(' := by rintro rfl; exact absurd h (by simp [isBlank_paren.1])
  have hclose : c ≠ ')' := by rintro rfl; exact absurd h (by simp [isBlank_paren.2])
  simp [ofDelimiter, hopen, hclose]

theorem isDelimiter_of_isBlank {c : Char} (h : isBlank c = true) : isDelimiter c = true := by
  simp [isDelimiter, h]

theorem isDelimiter_opening : isDelimiter '(' = true := by simp [isDelimiter]

theorem isDelimiter_closing : isDelimiter ')' = true := by simp [isDelimiter]

theorem lexFrom_word {word : List Char} (hword : IsWord word)
    (begun rest : List Char) :
    lexFrom begun (word ++ rest) = lexFrom (word.reverse ++ begun) rest := by
  induction word generalizing begun with
  | nil => rfl
  | cons c word ih =>
    have hc : isDelimiter c = false := hword c (by simp)
    rw [List.cons_append, lexFrom, hc, if_neg (by simp), ih fun d hd => hword d (by simp [hd])]
    simp

/-- **A text may be taken apart at a delimiter.** -/
theorem lexFrom_append {c : Char} (hc : isDelimiter c = true) (begun a b : List Char) :
    lexFrom begun (a ++ c :: b) = lexFrom begun a ++ ofDelimiter c ++ lexFrom [] b := by
  -- the atom begun before `a` may end in `a` or at `c`, so it is kept general
  induction a generalizing begun with
  | nil => simp [lexFrom, hc]
  | cons d a ih =>
    rw [List.cons_append, lexFrom, lexFrom]
    split
    · simp only [ih, List.append_assoc]
    · exact ih _

theorem lexFrom_delimiter {c : Char} (hc : isDelimiter c = true) (begun b : List Char) :
    lexFrom begun (c :: b) = flush begun ++ ofDelimiter c ++ lexFrom [] b :=
  lexFrom_append hc begun [] b

theorem lexFrom_opening (begun b : List Char) :
    lexFrom begun ('(' :: b) = flush begun ++ opening :: lexFrom [] b := by
  simp [lexFrom_delimiter isDelimiter_opening, ofDelimiter]

theorem lexFrom_blanks {blanks : List Char} (h : AllBlank blanks)
    (b : List Char) : lexFrom [] (blanks ++ b) = lexFrom [] b := by
  induction blanks with
  | nil => rfl
  | cons c blanks ih =>
    have hc : isBlank c = true := h c (by simp)
    rw [List.cons_append, lexFrom_delimiter (isDelimiter_of_isBlank hc),
      ofDelimiter_of_isBlank hc, ih fun d hd => h d (by simp [hd])]
    simp

/-- Blanks end the atom before them, however many they are. -/
theorem lexFrom_separated {blanks : List Char} (hne : blanks ≠ [])
    (h : AllBlank blanks) (begun b : List Char) :
    lexFrom begun (blanks ++ b) = flush begun ++ lexFrom [] b := by
  cases blanks with
  | nil => exact absurd rfl hne
  | cons c blanks =>
    have hc : isBlank c = true := h c (by simp)
    rw [List.cons_append, lexFrom_delimiter (isDelimiter_of_isBlank hc),
      ofDelimiter_of_isBlank hc, lexFrom_blanks fun d hd => h d (by simp [hd])]
    simp

theorem mem_flush {begun : List Char} {token : Token} (h : token ∈ flush begun) :
    begun ≠ [] ∧ token = atom (String.ofList begun.reverse) := by
  unfold flush at h
  split at h
  · exact absurd h (by simp)
  · next hne => exact ⟨by simpa using hne, by simpa using h⟩

theorem atom_not_mem_ofDelimiter (c : Char) (text : String) : atom text ∉ ofDelimiter c := by
  unfold ofDelimiter
  split
  · simp
  · split <;> simp

/-- Every atom has characters, and none of them is a delimiter. -/
theorem atom_mem_lexFrom {begun cs : List Char} {text : String}
    (hbegun : IsWord begun) (h : atom text ∈ lexFrom begun cs) :
    text ≠ "" ∧ IsWord text.toList := by
  induction cs generalizing begun with
  | nil =>
    obtain ⟨hne, htext⟩ := mem_flush h
    obtain rfl := Token.atom.inj htext
    exact ⟨by simpa using hne, by simpa using hbegun.reverse⟩
  | cons c cs ih =>
    rw [lexFrom] at h
    split at h
    · rw [List.append_assoc] at h
      rcases List.mem_append.mp h with h | h
      · obtain ⟨hne, htext⟩ := mem_flush h
        obtain rfl := Token.atom.inj htext
        exact ⟨by simpa using hne, by simpa using hbegun.reverse⟩
      · rcases List.mem_append.mp h with h | h
        · exact absurd h (atom_not_mem_ofDelimiter c text)
        · exact ih isWord_nil h
    · next hc =>
      refine ih (fun d hd => ?_) h
      rcases List.mem_cons.mp hd with rfl | hd
      · simpa using hc
      · exact hbegun d hd

/-! ## The tokenizer takes this pass -/

/-- With only blanks ahead there is no token, and nothing to be read after that. -/
theorem next?_blank {s : Scanner Char} {view rest : List Char} (h : s.Reads view rest)
    (hrest : rest.dropWhile isBlank = []) :
    (next? s).1 = none ∧ (next? s).2.Reads [] [] := by
  have hblank := h.ignoreBlanks
  rw [hrest] at hblank
  obtain ⟨t, haccept, ht⟩ := hblank.acceptIf_none (p := (['(', ')'].contains ·)) (by simp)
  obtain ⟨hany, hrun⟩ := ht.skipUntil isDelimiter
  have hany : (t.skipUntil isDelimiter).1 = false := by simpa using hany
  rw [next?, Scanner.acceptAny, haccept]
  dsimp only
  split
  · next u hu => rw [hu] at hany; exact absurd hany (by simp)
  · next u hu =>
    rw [hu] at hrun
    exact ⟨rfl, by simpa using hrun⟩

/-- A parenthesis behind the blanks is a token of its own. -/
theorem next?_paren {s : Scanner Char} {view rest ahead : List Char} {c : Char}
    (h : s.Reads view rest) (hc : c = '(' ∨ c = ')')
    (hrest : rest.dropWhile isBlank = c :: ahead) :
    (next? s).1 = some (if c = '(' then opening else closing) ∧ (next? s).2.Reads [] ahead := by
  have hblank := h.ignoreBlanks
  rw [hrest] at hblank
  have hmem : ['(', ')'].contains c = true := by rcases hc with rfl | rfl <;> decide
  obtain ⟨t, haccept, ht⟩ := hblank.acceptIf_cons (p := (['(', ')'].contains ·)) hmem
  rw [next?, Scanner.acceptAny, haccept]
  exact ⟨rfl, ht.ignore⟩

/-- Any other character behind the blanks begins an atom, which goes on to the next delimiter. -/
theorem next?_atom {s : Scanner Char} {view rest ahead : List Char} {c : Char}
    (h : s.Reads view rest) (hc : isDelimiter c = false)
    (hrest : rest.dropWhile isBlank = c :: ahead) :
    (next? s).1 = some (atom (String.ofList ((c :: ahead).takeWhile (!isDelimiter ·)))) ∧
      (next? s).2.Reads [] ((c :: ahead).dropWhile (!isDelimiter ·)) := by
  have hblank := h.ignoreBlanks
  rw [hrest] at hblank
  have hparen : c ≠ '(' ∧ c ≠ ')' := by
    constructor <;> rintro rfl
    · exact absurd hc (by simp [isDelimiter_opening])
    · exact absurd hc (by simp [isDelimiter_closing])
  obtain ⟨t, haccept, ht⟩ := hblank.acceptIf_none (p := (['(', ')'].contains ·))
    (by simp [hparen.1, hparen.2])
  obtain ⟨hany, hrun⟩ := ht.skipUntil isDelimiter
  have hany : (t.skipUntil isDelimiter).1 = true := by simpa [hc] using hany
  have hview : (t.skipUntil isDelimiter).2.view = (c :: ahead).takeWhile (!isDelimiter ·) := by
    simpa using hrun.view_eq
  rw [next?, Scanner.acceptAny, haccept]
  dsimp only
  split
  · next u hu =>
    rw [hu] at hview hrun
    exact ⟨by rw [Scanner.extractText, hview], hrun.ignore⟩
  · next u hu => rw [hu] at hany; exact absurd hany (by simp)

theorem isBlank_of_dropWhile {rest ahead : List Char} {c : Char}
    (hrest : rest.dropWhile isBlank = c :: ahead) : isBlank c = false := by
  have hhead := List.head?_dropWhile_not isBlank rest
  rw [hrest] at hhead
  simpa using hhead

theorem lexFrom_dropWhile (rest : List Char) :
    lexFrom [] (rest.dropWhile isBlank) = lexFrom [] rest := by
  have hblanks : AllBlank (rest.takeWhile isBlank) :=
    fun c hc => List.mem_takeWhile_imp hc
  calc lexFrom [] (rest.dropWhile isBlank)
      = lexFrom [] (rest.takeWhile isBlank ++ rest.dropWhile isBlank) :=
        (lexFrom_blanks hblanks _).symm
    _ = lexFrom [] rest := by rw [List.takeWhile_append_dropWhile]

/-- An atom that is begun here ends at the next delimiter. -/
theorem lexFrom_atom {c : Char} (hc : isDelimiter c = false) (ahead : List Char) :
    lexFrom [] (c :: ahead) =
      atom (String.ofList ((c :: ahead).takeWhile (!isDelimiter ·))) ::
        lexFrom [] ((c :: ahead).dropWhile (!isDelimiter ·)) := by
  have hword : IsWord ((c :: ahead).takeWhile (!isDelimiter ·)) :=
    fun d hd => by simpa using List.mem_takeWhile_imp hd
  have hsplit : lexFrom [] (c :: ahead) =
      lexFrom ((c :: ahead).takeWhile (!isDelimiter ·)).reverse
        ((c :: ahead).dropWhile (!isDelimiter ·)) := by
    have hgo := lexFrom_word hword [] ((c :: ahead).dropWhile (!isDelimiter ·))
    rwa [List.takeWhile_append_dropWhile, List.append_nil] at hgo
  have hflush : flush ((c :: ahead).takeWhile (!isDelimiter ·)).reverse =
      [atom (String.ofList ((c :: ahead).takeWhile (!isDelimiter ·)))] := by
    simp [flush, hc]
  rw [hsplit]
  cases hrest : (c :: ahead).dropWhile (!isDelimiter ·) with
  | nil => rw [lexFrom_nil, hflush]; rfl
  | cons d after =>
    have hd : isDelimiter d = true := by
      have hhead := List.head?_dropWhile_not (!isDelimiter ·) (c :: ahead)
      rw [hrest] at hhead
      simpa using hhead
    rw [lexFrom_delimiter hd, lexFrom_delimiter hd, hflush]
    simp

/-- **One token** is the first of the pass over what is ahead, and the pass goes on behind it. -/
theorem next?_reads {s : Scanner Char} {view rest : List Char} (h : s.Reads view rest) :
    (next? s).1 = (lexFrom [] rest).head? ∧ ∃ ahead, (next? s).2.Reads [] ahead ∧
      lexFrom [] ahead = (lexFrom [] rest).tail := by
  rw [← lexFrom_dropWhile rest]
  cases hrest : rest.dropWhile isBlank with
  | nil =>
    obtain ⟨htoken, hreads⟩ := next?_blank h hrest
    exact ⟨htoken, [], hreads, rfl⟩
  | cons c ahead =>
    by_cases hparen : c = '(' ∨ c = ')'
    · obtain ⟨htoken, hreads⟩ := next?_paren h hparen hrest
      have hlex : lexFrom [] (c :: ahead) =
          (if c = '(' then opening else closing) :: lexFrom [] ahead := by
        rcases hparen with rfl | rfl
        · exact lexFrom_opening [] ahead
        · exact lexFrom_delimiter isDelimiter_closing [] ahead
      rw [htoken, hlex]
      exact ⟨rfl, ahead, hreads, rfl⟩
    · have hc : isDelimiter c = false := by
        simp [isDelimiter, isBlank_of_dropWhile hrest, not_or.mp hparen]
      obtain ⟨htoken, hreads⟩ := next?_atom h hc hrest
      rw [htoken, lexFrom_atom hc]
      exact ⟨rfl, _, hreads, rfl⟩

/-- Collecting tokens from a scanner is one pass over what is ahead of it. -/
theorem collect_eq_lexFrom {s : Scanner Char} {view rest : List Char} (h : s.Reads view rest) :
    collect s = lexFrom [] rest := by
  -- the induction is on the tokens still to come
  induction hlex : lexFrom [] rest generalizing s view rest with
  | nil =>
    have htoken := (next?_reads h).1
    rw [collect_eq, htoken, hlex]
    rfl
  | cons token tokens ih =>
    obtain ⟨htoken, ahead, hreads, htail⟩ := next?_reads h
    rw [hlex] at htoken htail
    rw [collect_eq, htoken]
    exact congrArg _ (ih hreads htail)

end Token

theorem tokens_eq_lexFrom (source : String) : tokens source = Token.lexFrom [] source.toList :=
  Token.collect_eq_lexFrom (Scanner.reads_ofList _)

theorem atom_mem_tokens {source text : String} (h : .atom text ∈ tokens source) :
    text ≠ "" ∧ Token.IsWord text.toList := by
  rw [tokens_eq_lexFrom] at h
  exact Token.atom_mem_lexFrom Token.isWord_nil h

end ScopedLisp
