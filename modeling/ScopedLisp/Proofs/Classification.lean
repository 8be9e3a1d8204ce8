import ScopedLisp.Proofs.Grammar
import ScopedLisp.Proofs.Tokens

/-!
# How a reading ends

Counting parentheses decides how a reading ends. An expression ends at the first place where as
many lists have been closed as opened; without such a place the text ends too early, and with
tokens behind it they are trailing. Only a text that starts with a closing parenthesis is refused
for it: later ones are matched, or stand behind the place where the reading has stopped.

The inductions are over the reader's own recursion. They run with lists already open, so the
count starts at the number of those, and it can reach zero only at the end.
-/

namespace ScopedLisp.Reader

/-- With `depth` lists open before them, the first `k` tokens close as many lists as are open
before or opened by them. -/
def Balanced (depth : Nat) (tokens : List Token) (k : Nat) : Prop :=
  depth + (tokens.take k).count .opening = (tokens.take k).count .closing

/-- The least `k ≥ 1` at which the first `k` tokens are balanced. -/
structure FirstBalanced (depth : Nat) (tokens : List Token) (k : Nat) : Prop where
  pos : 1 ≤ k
  le_length : k ≤ tokens.length
  balanced : Balanced depth tokens k
  least : ∀ j, 1 ≤ j → j < k → ¬ Balanced depth tokens j

theorem FirstBalanced.unique {depth : Nat} {tokens : List Token} {k l : Nat}
    (hk : FirstBalanced depth tokens k) (hl : FirstBalanced depth tokens l) : k = l := by
  rcases Nat.lt_trichotomy k l with h | h | h
  · exact absurd hk.balanced (hl.least k hk.pos h)
  · exact h
  · exact absurd hl.balanced (hk.least l hl.pos h)

theorem balanced_zero {depth : Nat} {tokens : List Token} : Balanced depth tokens 0 ↔ depth = 0 := by
  simp [Balanced]

theorem balanced_opening {depth : Nat} {rest : List Token} {k : Nat} :
    Balanced depth (.opening :: rest) (k + 1) ↔ Balanced (depth + 1) rest k := by
  simp [Balanced]
  omega

theorem balanced_closing {depth : Nat} {rest : List Token} {k : Nat} :
    Balanced (depth + 1) (.closing :: rest) (k + 1) ↔ Balanced depth rest k := by
  simp [Balanced]
  omega

theorem balanced_atom {depth : Nat} {text : String} {rest : List Token} {k : Nat} :
    Balanced depth (.atom text :: rest) (k + 1) ↔ Balanced depth rest k := by
  simp [Balanced]

/-- A token that leaves lists open does not end the expression. -/
theorem firstBalanced_cons {depth depth' : Nat} {token : Token} {rest : List Token}
    (hopen : depth' ≠ 0)
    (hstep : ∀ {k}, Balanced depth (token :: rest) (k + 1) ↔ Balanced depth' rest k) {k : Nat} :
    FirstBalanced depth (token :: rest) (k + 1) ↔ FirstBalanced depth' rest k := by
  constructor
  · rintro ⟨-, hle, hbalanced, hleast⟩
    rw [hstep] at hbalanced
    refine ⟨?_, by simpa using hle, hbalanced, fun j hj hlt => ?_⟩
    · rcases Nat.eq_zero_or_pos k with rfl | hpos
      · exact absurd (balanced_zero.mp hbalanced) hopen
      · exact hpos
    · exact fun hb => hleast (j + 1) (by omega) (by omega) (hstep.mpr hb)
  · rintro ⟨-, hle, hbalanced, hleast⟩
    refine ⟨by omega, by simpa using hle, hstep.mpr hbalanced, fun j hj hlt => ?_⟩
    obtain ⟨j, rfl⟩ : ∃ i, j = i + 1 := ⟨j - 1, by omega⟩
    rw [hstep]
    rcases Nat.eq_zero_or_pos j with rfl | hpos
    · exact fun hb => hopen (balanced_zero.mp hb)
    · exact hleast j hpos (by omega)

theorem firstBalanced_one {depth : Nat} {token : Token} {rest : List Token}
    (h : Balanced depth (token :: rest) 1) : FirstBalanced depth (token :: rest) 1 :=
  ⟨Nat.le_refl 1, by simp, h, fun j hj hlt => by omega⟩

/-! ## What each ending says about the tokens -/

theorem readWith_ok_balanced {stack : List (List Value)} {tokens rest : List Token} {v : Value}
    (h : readWith stack tokens = (.ok v, rest)) :
    ∃ k, FirstBalanced stack.length tokens k ∧ rest = tokens.drop k := by
  fun_induction readWith stack tokens with
  | case1 | case3 | case6 => cases h
  | case2 stack tail ih =>
    obtain ⟨k, hk, rfl⟩ := ih h
    exact ⟨k + 1, (firstBalanced_cons (by simp) balanced_opening).mpr hk, rfl⟩
  | case4 tail items =>
    cases h
    exact ⟨1, firstBalanced_one (balanced_closing.mpr (balanced_zero.mpr rfl)), rfl⟩
  | case5 tail items outer others ih =>
    obtain ⟨k, hk, rfl⟩ := ih h
    exact ⟨k + 1, (firstBalanced_cons (by simp) balanced_closing).mpr hk, rfl⟩
  | case7 text tail hatom =>
    cases h
    exact ⟨1, firstBalanced_one (balanced_atom.mpr (balanced_zero.mpr rfl)), rfl⟩
  | case8 text tail v items others hatom ih =>
    obtain ⟨k, hk, rfl⟩ := ih h
    exact ⟨k + 1, (firstBalanced_cons (by simp) balanced_atom).mpr hk, rfl⟩

/-- What is balanced nowhere behind a token that leaves lists open is balanced nowhere. -/
theorem not_firstBalanced_cons {depth depth' : Nat} {token : Token} {rest : List Token}
    (hopen : depth' ≠ 0)
    (hstep : ∀ {k}, Balanced depth (token :: rest) (k + 1) ↔ Balanced depth' rest k)
    (hnone : ∀ k, ¬ FirstBalanced depth' rest k) (k : Nat) :
    ¬ FirstBalanced depth (token :: rest) k := by
  intro hk
  obtain ⟨k, rfl⟩ : ∃ i, k = i + 1 := ⟨k - 1, by have := hk.pos; omega⟩
  exact hnone k ((firstBalanced_cons hopen hstep).mp hk)

theorem not_firstBalanced_nil {depth k : Nat} : ¬ FirstBalanced depth [] k :=
  fun hk => absurd (hk.pos.trans hk.le_length) (Nat.not_succ_le_zero 0)

/-- The end of the input is met only where no prefix is balanced, and then nothing is left. -/
theorem readWith_unexpectedEnd {stack : List (List Value)} {tokens rest : List Token}
    (h : readWith stack tokens = (.error .unexpectedEnd, rest)) :
    rest = [] ∧ ∀ k, ¬ FirstBalanced stack.length tokens k := by
  fun_induction readWith stack tokens with
  | case1 stack =>
    cases h
    exact ⟨rfl, fun k => not_firstBalanced_nil⟩
  | case3 | case4 | case7 => cases h
  | case2 stack tail ih =>
    obtain ⟨hrest, hnone⟩ := ih h
    exact ⟨hrest, not_firstBalanced_cons (by simp) balanced_opening hnone⟩
  | case5 tail items outer others ih =>
    obtain ⟨hrest, hnone⟩ := ih h
    exact ⟨hrest, not_firstBalanced_cons (by simp) balanced_closing hnone⟩
  | case6 stack text tail e hatom =>
    cases h
    exact absurd (atom_eq_error hatom).1 (by simp)
  | case8 text tail v items others hatom ih =>
    obtain ⟨hrest, hnone⟩ := ih h
    exact ⟨hrest, not_firstBalanced_cons (by simp) balanced_atom hnone⟩

/-- A closing parenthesis is refused only as the first token and outside of all lists. -/
theorem readWith_unexpectedClosing {stack : List (List Value)} {tokens rest : List Token}
    (h : readWith stack tokens = (.error .unexpectedClosing, rest)) :
    stack = [] ∧ tokens = .closing :: rest := by
  fun_induction readWith stack tokens with
  | case1 | case4 | case7 => cases h
  | case2 _ _ ih | case5 _ _ _ _ ih | case8 _ _ _ _ _ _ ih => exact absurd (ih h).1 (by simp)
  | case3 tail =>
    cases h
    exact ⟨rfl, rfl⟩
  | case6 stack text tail e hatom =>
    cases h
    exact absurd (atom_eq_error hatom).1 (by simp)

/-- The empty atom that is refused is the first one, and the expression has not ended before it. -/
theorem readWith_emptyAtom {stack : List (List Value)} {tokens rest : List Token}
    (h : readWith stack tokens = (.error .emptyAtom, rest)) :
    ∃ before, tokens = before ++ .atom "" :: rest ∧ .atom "" ∉ before ∧
      (∀ k, ¬ FirstBalanced stack.length before k) ∧
      (stack = [] → before.head? ≠ some .closing) := by
  fun_induction readWith stack tokens with
  | case1 | case3 | case4 | case7 => cases h
  | case2 stack tail ih =>
    obtain ⟨before, rfl, hfirst, hnone, -⟩ := ih h
    exact ⟨.opening :: before, rfl, by simp [hfirst],
      not_firstBalanced_cons (by simp) balanced_opening hnone, fun _ => by simp⟩
  | case5 tail items outer others ih =>
    obtain ⟨before, rfl, hfirst, hnone, -⟩ := ih h
    exact ⟨.closing :: before, rfl, by simp [hfirst],
      not_firstBalanced_cons (by simp) balanced_closing hnone, by simp⟩
  | case6 stack text tail e hatom =>
    cases h
    obtain ⟨-, rfl⟩ := atom_eq_error hatom
    exact ⟨[], rfl, List.not_mem_nil, fun k => not_firstBalanced_nil, fun _ => by simp⟩
  | case8 text tail v items others hatom ih =>
    obtain ⟨before, rfl, hfirst, hnone, -⟩ := ih h
    have hne : text ≠ "" := by
      rintro rfl
      cases atom_empty.symm.trans hatom
    exact ⟨.atom text :: before, rfl, by simp [hfirst, hne.symm],
      not_firstBalanced_cons (by simp) balanced_atom hnone, by simp⟩

theorem readWith_ne_trailing {stack : List (List Value)} {tokens rest : List Token} {text : String} :
    readWith stack tokens ≠ (.error (.trailing text), rest) := by
  intro h
  fun_induction readWith stack tokens with
  | case1 | case3 | case4 | case7 => cases h
  | case2 _ _ ih | case5 _ _ _ _ ih | case8 _ _ _ _ _ _ ih => exact ih h
  | case6 stack text tail e hatom =>
    cases h
    exact absurd (atom_eq_error hatom).1 (by simp)

/-! ## The endings of a text -/

/-- How taking one expression off the front of `tokens` can end, with what it leaves. -/
inductive Ending (tokens : List Token) : Except ReadError Value × List Token → Prop
  | expression {v : Value} {k : Nat} (h : FirstBalanced 0 tokens k) :
      Ending tokens (.ok v, tokens.drop k)
  | unexpectedEnd (h : ∀ k, ¬ FirstBalanced 0 tokens k) :
      Ending tokens (.error .unexpectedEnd, [])
  | unexpectedClosing {rest : List Token} (h : tokens = .closing :: rest) :
      Ending tokens (.error .unexpectedClosing, rest)
  | emptyAtom {rest : List Token} (h : .atom "" ∈ tokens) :
      Ending tokens (.error .emptyAtom, rest)

theorem readFrom_ending (tokens : List Token) : Ending tokens (readFrom tokens) := by
  cases hread : readFrom tokens with
  | mk answer rest =>
    cases answer with
    | ok v =>
      obtain ⟨k, hk, rfl⟩ := readWith_ok_balanced hread
      exact .expression hk
    | error e =>
      cases e with
      | unexpectedClosing => exact .unexpectedClosing (readWith_unexpectedClosing hread).2
      | unexpectedEnd =>
        obtain ⟨rfl, hnone⟩ := readWith_unexpectedEnd hread
        exact .unexpectedEnd hnone
      | trailing text => exact absurd hread readWith_ne_trailing
      | emptyAtom =>
        obtain ⟨before, rfl, -⟩ := readWith_emptyAtom hread
        exact .emptyAtom (by simp)

/-- No token of a text is the empty atom, so the text is read, or has a token behind its
expression, or ends too early, or starts with a closing parenthesis. -/
theorem readText_cases (source : String) :
    (∃ v, readText source = .ok v ∧ FirstBalanced 0 (tokens source) (tokens source).length) ∨
    (∃ k token, readText source = .error (.trailing token.text) ∧
      FirstBalanced 0 (tokens source) k ∧ (tokens source)[k]? = some token) ∨
    (readText source = .error .unexpectedEnd ∧ ∀ k, ¬ FirstBalanced 0 (tokens source) k) ∨
    (readText source = .error .unexpectedClosing ∧ (tokens source).head? = some .closing) := by
  have hending := readFrom_ending (tokens source)
  generalize hread : readFrom (tokens source) = result at hending
  cases hending with
  | @expression v k hk =>
    cases hrest : (tokens source).drop k with
    | nil =>
      have hlength : k = (tokens source).length :=
        Nat.le_antisymm hk.le_length (List.drop_eq_nil_iff.mp hrest)
      exact .inl ⟨v, by simp [readText, hread, hrest], hlength ▸ hk⟩
    | cons token rest =>
      have hnext : (tokens source)[k]? = some token := by
        rw [← List.head?_drop, hrest]
        rfl
      exact .inr (.inl ⟨k, token, by simp [readText, hread, hrest], hk, hnext⟩)
  | unexpectedEnd hnone =>
    exact .inr (.inr (.inl ⟨by simp [readText, hread], hnone⟩))
  | unexpectedClosing htokens =>
    exact .inr (.inr (.inr ⟨by simp [readText, hread], by simp [htokens]⟩))
  | emptyAtom hmem => exact absurd rfl (atom_mem_tokens hmem).1

theorem readText_ne_emptyAtom (source : String) : readText source ≠ .error .emptyAtom := by
  rcases readText_cases source with
    ⟨v, hread, -⟩ | ⟨k, token, hread, -⟩ | ⟨hread, -⟩ | ⟨hread, -⟩ <;> simp [hread]

theorem readText_eq_unexpectedClosing_iff {source : String} :
    readText source = .error .unexpectedClosing ↔ (tokens source).head? = some .closing := by
  constructor
  · intro h
    rcases readText_cases source with
      ⟨v, hread, -⟩ | ⟨k, token, hread, -⟩ | ⟨hread, -⟩ | ⟨-, hclosing⟩
    · exact absurd (h.symm.trans hread) nofun
    · exact absurd (h.symm.trans hread) nofun
    · exact absurd (h.symm.trans hread) nofun
    · exact hclosing
  · intro h
    obtain ⟨rest, hrest⟩ := List.head?_eq_some_iff.mp h
    simp [readText, readFrom, hrest, readWith]

theorem readText_eq_unexpectedEnd_iff {source : String}
    (hopen : (tokens source).head? ≠ some .closing) :
    readText source = .error .unexpectedEnd ↔ ¬ ∃ k, FirstBalanced 0 (tokens source) k := by
  rcases readText_cases source with
    ⟨v, hread, hk⟩ | ⟨k, token, hread, hk, -⟩ | ⟨hread, hnone⟩ | ⟨-, hclosing⟩
  · exact ⟨fun h => absurd (h.symm.trans hread) nofun, fun hno => absurd ⟨_, hk⟩ hno⟩
  · exact ⟨fun h => absurd (h.symm.trans hread) nofun, fun hno => absurd ⟨k, hk⟩ hno⟩
  · exact ⟨fun _ ⟨k, hk⟩ => hnone k hk, fun _ => hread⟩
  · exact absurd hclosing hopen

/-- At the first place of balance a text ends as an expression or goes on with a token too many. -/
theorem readText_of_firstBalanced {source : String} {k : Nat}
    (hopen : (tokens source).head? ≠ some .closing) (hk : FirstBalanced 0 (tokens source) k) :
    (∃ v, readText source = .ok v ∧ k = (tokens source).length) ∨
      ∃ token, readText source = .error (.trailing token.text) ∧
        (tokens source)[k]? = some token := by
  rcases readText_cases source with
    ⟨v, hread, hl⟩ | ⟨l, token, hread, hl, hnext⟩ | ⟨-, hnone⟩ | ⟨-, hclosing⟩
  · exact .inl ⟨v, hread, hk.unique hl⟩
  · exact .inr ⟨token, hread, hk.unique hl ▸ hnext⟩
  · exact absurd hk (hnone k)
  · exact absurd hclosing hopen

/-- **The reader accepts exactly its grammar and classifies every failure.** The tree of an
accepted text is the only one that its tokens spell. -/
theorem readText_classifies (source : String) :
    (tokens source = [] → readText source = .error .unexpectedEnd) ∧
    (readText source = .error .unexpectedClosing ↔ (tokens source).head? = some .closing) ∧
    ((tokens source).head? ≠ some .closing →
      (readText source = .error .unexpectedEnd ↔ ¬ ∃ k, FirstBalanced 0 (tokens source) k) ∧
      ∀ k, FirstBalanced 0 (tokens source) k →
        (∀ text, readText source = .error (.trailing text) ↔
          ∃ token, (tokens source)[k]? = some token ∧ token.text = text) ∧
        (∀ v, readText source = .ok v ↔
          k = (tokens source).length ∧ Spelled (tokens source) v.pieces) ∧
        (k = (tokens source).length → ∃! v : Value, Spelled (tokens source) v.pieces)) ∧
    readText source ≠ .error .emptyAtom := by
  refine ⟨fun hnil => ?_, readText_eq_unexpectedClosing_iff,
    fun hopen => ⟨readText_eq_unexpectedEnd_iff hopen, fun k hk => ?_⟩, readText_ne_emptyAtom source⟩
  · rw [readText_eq_unexpectedEnd_iff (by simp [hnil])]
    rintro ⟨k, hk⟩
    have := hk.pos.trans hk.le_length
    simp [hnil] at this
  · rcases readText_of_firstBalanced hopen hk with ⟨v, hread, hlength⟩ | ⟨token, hread, hnext⟩
    · have hend : (tokens source)[k]? = none := List.getElem?_eq_none (Nat.le_of_eq hlength.symm)
      refine ⟨fun text => by simp [hread, hend], fun w => ?_, fun _ => ⟨v, ?_, fun w hw => ?_⟩⟩
      · rw [readText_eq_ok_iff]
        exact ⟨fun hspelled => ⟨hlength, hspelled⟩, And.right⟩
      · exact readText_eq_ok_iff.mp hread
      · have hw : readText source = .ok w := readText_eq_ok_iff.mpr hw
        rw [hread] at hw
        exact (Except.ok.inj hw).symm
    · have hlt : k < (tokens source).length := (List.getElem?_eq_some_iff.mp hnext).1
      exact ⟨fun text => by simp [hread, hnext], fun w => by simp [hread, Nat.ne_of_lt hlt],
        fun hlength => absurd hlength (Nat.ne_of_lt hlt)⟩

/-- A list that is closed and opened again by what follows it: the reading stops behind the third
token and refuses the fourth. -/
theorem readText_classifies_reopened :
    FirstBalanced 0 (tokens "(a)(") 3 ∧ readText "(a)(" = .error (.trailing "(") := by
  have htokens : tokens "(a)(" = [.opening, .atom "a", .closing, .opening] := by
    rw [tokens_eq_lexFrom]
    decide
  have hk : FirstBalanced 0 (tokens "(a)(") 3 := by
    rw [htokens]
    refine ⟨by decide, by decide, rfl, fun j hj hlt => ?_⟩
    obtain rfl | rfl : j = 1 ∨ j = 2 := by omega
    · exact fun h => absurd h (by simp [Balanced])
    · exact fun h => absurd h (by simp [Balanced])
  have hopen : (tokens "(a)(").head? ≠ some .closing := by rw [htokens]; decide
  refine ⟨hk, ?_⟩
  exact ((((readText_classifies "(a)(").2.2.1 hopen).2 3 hk).1 "(").mpr
    ⟨.opening, by rw [htokens]; rfl, rfl⟩

end ScopedLisp.Reader
