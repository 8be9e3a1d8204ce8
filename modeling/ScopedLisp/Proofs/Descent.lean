import ScopedLisp.Proofs.Classification
import ScopedLisp.Proofs.Cursor

/-!
# Recursive descent through a scanner

The reader is one pass over a list of tokens. A reader that pulls its tokens through a scanner is
written differently: it looks ahead to see whether a list goes on, reads each item by calling
itself, and gives up in the middle as soon as an item fails. `Descends` is that reader, rule by
rule as it steps and looks.

The two are the same (`Descends.reads`): the answer is that of `readFrom` on what is ahead, and the
scanner is left in front of what `readFrom` leaves. So the descent always comes to an answer, and to
one only.
-/

namespace ScopedLisp.Reader

/-- Where a descent stands: in front of an expression, or inside of a list with these items. -/
inductive Place where
  | expression
  | list (items : List Value)

/-- From this place and scanner, the descent comes to this answer and leaves that scanner. -/
inductive Descends : Place → Scanner Token → Except ReadError Value → Scanner Token → Prop
  | ended {s : Scanner Token} (h : s.next.1 = none) :
      Descends .expression s (.error .unexpectedEnd) s.next.2
  | closing {s : Scanner Token} (h : s.next.1 = some .closing) :
      Descends .expression s (.error .unexpectedClosing) s.next.2
  | atom {s : Scanner Token} {text : String} (h : s.next.1 = some (.atom text)) :
      Descends .expression s (Reader.atom text) s.next.2
  | opening {s t : Scanner Token} {answer : Except ReadError Value}
      (h : s.next.1 = some .opening) (hlist : Descends (.list []) s.next.2 answer t) :
      Descends .expression s answer t
  | unclosed {s : Scanner Token} {items : List Value} (h : s.peek.1 = none) :
      Descends (.list items) s (.error .unexpectedEnd) s.peek.2
  | closed {s : Scanner Token} {items : List Value} (h : s.peek.1 = some .closing) :
      Descends (.list items) s (.ok (.list items)) s.peek.2.next.2
  | item {s t u : Scanner Token} {items : List Value} {token : Token} {v : Value}
      {answer : Except ReadError Value} (h : s.peek.1 = some token) (hopen : token ≠ .closing)
      (hitem : Descends .expression s.peek.2 (.ok v) t)
      (hrest : Descends (.list (items ++ [v])) t answer u) :
      Descends (.list items) s answer u
  | failed {s t : Scanner Token} {items : List Value} {token : Token} {e : ReadError}
      (h : s.peek.1 = some token) (hopen : token ≠ .closing)
      (hitem : Descends .expression s.peek.2 (.error e) t) :
      Descends (.list items) s (.error e) t

/-- The lists that are open at a place inside of other lists. -/
def Place.onto (outer : List (List Value)) : Place → List (List Value)
  | .expression => outer
  | .list items => items.reverse :: outer

/-- How the pass over the tokens goes on from an answer: an error ends it. -/
def goOn (outer : List (List Value)) (left : List Token) :
    Except ReadError Value → Except ReadError Value × List Token
  | .ok v => resume v left outer
  | .error e => (.error e, left)

@[simp] theorem goOn_nil (left : List Token) (answer : Except ReadError Value) :
    goOn [] left answer = (answer, left) := by
  cases answer <;> rfl

variable {place : Place} {s t : Scanner Token} {answer : Except ReadError Value}
  {view rest : List Token}

/-! ## The descent is the pass -/

theorem cons_of_next {token : Token} (hreads : s.Reads view rest) (h : s.next.1 = some token) :
    ∃ left, rest = token :: left ∧ s.next.2.Reads (view ++ [token]) left := by
  cases rest with
  | nil => exact absurd (hreads.advance_nil.1.symm.trans h) nofun
  | cons other left =>
    obtain ⟨hcurrent, hnext⟩ := hreads.advance_cons
    obtain rfl := Option.some.inj (hcurrent.symm.trans h)
    exact ⟨left, rfl, hnext⟩

theorem nil_of_next (hreads : s.Reads view rest) (h : s.next.1 = none) :
    rest = [] ∧ s.next.2.Reads view [] := by
  cases rest with
  | nil => exact ⟨rfl, hreads.advance_nil.2⟩
  | cons token left => exact absurd (hreads.advance_cons.1.symm.trans h) nofun

/-- **What a descent takes off the scanner, the pass takes off the list**, with the same answer. In
front of an expression inside of lists there is no closing parenthesis: it would have been seen. -/
theorem Descends.readWith (h : Descends place s answer t) (hreads : s.Reads view rest) :
    ∃ used left, rest = used ++ left ∧ t.Reads (view ++ used) left ∧
      ∀ outer, (place = .expression → rest.head? = some .closing → outer = []) →
        Reader.readWith (place.onto outer) rest = goOn outer left answer := by
  induction h generalizing view rest with
  | ended hnext =>
    obtain ⟨rfl, hleft⟩ := nil_of_next hreads hnext
    exact ⟨[], [], rfl, by simpa using hleft, fun outer _ => by simp [Reader.readWith, goOn]⟩
  | closing hnext =>
    obtain ⟨left, rfl, hleft⟩ := cons_of_next hreads hnext
    refine ⟨[.closing], left, rfl, hleft, fun outer houter => ?_⟩
    obtain rfl := houter rfl rfl
    rfl
  | @atom s text hnext =>
    obtain ⟨left, rfl, hleft⟩ := cons_of_next hreads hnext
    refine ⟨[.atom text], left, rfl, hleft, fun outer _ => ?_⟩
    simp only [Place.onto, Reader.readWith]
    cases Reader.atom text <;> cases outer <;> rfl
  | opening hnext _ ih =>
    obtain ⟨middle, rfl, hmiddle⟩ := cons_of_next hreads hnext
    obtain ⟨used, left, rfl, hleft, hread⟩ := ih hmiddle
    refine ⟨.opening :: used, left, rfl, by simpa using hleft, fun outer _ => ?_⟩
    exact hread outer (by simp)
  | @unclosed s items hpeek =>
    obtain ⟨hanswer, hahead⟩ := hreads.peek
    obtain rfl := List.head?_eq_none_iff.mp (hanswer.symm.trans hpeek)
    exact ⟨[], [], rfl, by simpa using hahead, fun outer _ => by simp [Reader.readWith, goOn]⟩
  | @closed s items hpeek =>
    obtain ⟨hanswer, hahead⟩ := hreads.peek
    obtain ⟨left, rfl⟩ := List.head?_eq_some_iff.mp (hanswer.symm.trans hpeek)
    refine ⟨[.closing], left, rfl, hahead.advance_cons.2, fun outer _ => ?_⟩
    cases outer <;> simp [Place.onto, Reader.readWith, goOn, resume]
  | @item s t u items token v answer hpeek hopen _ _ ihitem ihrest =>
    obtain ⟨hanswer, hahead⟩ := hreads.peek
    have hhead : rest.head? = some token := hanswer.symm.trans hpeek
    obtain ⟨first, middle, rfl, hmiddle, hfirst⟩ := ihitem hahead
    obtain ⟨used, left, rfl, hleft, hread⟩ := ihrest hmiddle
    refine ⟨first ++ used, left, by simp, by simpa using hleft, fun outer _ => ?_⟩
    have hnot : (first ++ (used ++ left)).head? ≠ some .closing := by
      rw [hhead]
      exact fun heq => hopen (Option.some.inj heq)
    have hitem := hfirst (items.reverse :: outer) fun _ hclosing => absurd hclosing hnot
    have hrest := hread outer (by simp)
    rw [Place.onto, List.reverse_append] at hrest
    exact hitem.trans hrest
  | @failed s t items token e hpeek hopen _ ihitem =>
    obtain ⟨hanswer, hahead⟩ := hreads.peek
    have hhead : rest.head? = some token := hanswer.symm.trans hpeek
    obtain ⟨used, left, rfl, hleft, hread⟩ := ihitem hahead
    refine ⟨used, left, rfl, hleft, fun outer _ => ?_⟩
    have hnot : (used ++ left).head? ≠ some .closing := by
      rw [hhead]
      exact fun heq => hopen (Option.some.inj heq)
    exact hread (items.reverse :: outer) fun _ hclosing => absurd hclosing hnot

theorem Descends.reads (h : Descends .expression s answer t) (hreads : s.Reads view rest) :
    ∃ used left, rest = used ++ left ∧ t.Reads (view ++ used) left ∧
      readFrom rest = (answer, left) := by
  obtain ⟨used, left, hsplit, hleft, hread⟩ := h.readWith hreads
  have hanswer := hread [] fun _ _ => rfl
  rw [goOn_nil] at hanswer
  exact ⟨used, left, hsplit, hleft, hanswer⟩

/-! ## There is one answer -/

/-- A descent that finds a token takes it. -/
theorem Descends.length_lt {token : Token} {left : List Token}
    (h : Descends .expression s answer t) (hreads : s.Reads view (token :: left)) :
    t.ahead.length < (token :: left).length := by
  obtain ⟨used, after, -, hafter, hread⟩ := h.reads hreads
  have hlt := length_readWith_lt [] token left
  rw [hafter.ahead_eq]
  rwa [show Reader.readWith [] (token :: left) = (answer, after) from hread] at hlt

/-- The descent comes to an end, since each of its steps leaves less ahead. -/
theorem exists_descends (n : Nat) :
    (∀ {s view rest}, s.Reads view rest → rest.length < n →
      ∃ answer t, Descends .expression s answer t) ∧
    ∀ {s view rest} (items : List Value), s.Reads view rest → rest.length < n →
      ∃ answer t, Descends (.list items) s answer t := by
  induction n with
  | zero => exact ⟨fun _ hlt => absurd hlt (Nat.not_lt_zero _),
      fun _ _ hlt => absurd hlt (Nat.not_lt_zero _)⟩
  | succ n ih =>
    obtain ⟨-, ihlist⟩ := ih
    have hexpression : ∀ {s view rest}, s.Reads view rest → rest.length < n + 1 →
        ∃ answer t, Descends .expression s answer t := by
      intro s view rest hreads hlt
      cases rest with
      | nil => exact ⟨_, _, .ended hreads.advance_nil.1⟩
      | cons token left =>
        obtain ⟨hcurrent, hnext⟩ := hreads.advance_cons
        cases token with
        | closing => exact ⟨_, _, .closing hcurrent⟩
        | atom text => exact ⟨_, _, .atom hcurrent⟩
        | opening =>
          obtain ⟨answer, t, hlist⟩ := ihlist [] hnext (Nat.lt_of_succ_lt_succ hlt)
          exact ⟨answer, t, .opening hcurrent hlist⟩
    refine ⟨hexpression, fun {s view rest} items hreads hlt => ?_⟩
    obtain ⟨hanswer, hahead⟩ := hreads.peek
    cases rest with
    | nil => exact ⟨_, _, .unclosed hanswer⟩
    | cons token left =>
      by_cases hclosing : token = .closing
      · exact ⟨_, _, .closed (hclosing ▸ hanswer)⟩
      · obtain ⟨answer, t, hitem⟩ := hexpression hahead hlt
        cases answer with
        | error e => exact ⟨_, _, .failed hanswer hclosing hitem⟩
        | ok v =>
          -- an item takes at least one token, and the list goes on behind it
          have hshorter := hitem.length_lt hahead
          obtain ⟨used, after, -, hafter, -⟩ := hitem.reads hahead
          rw [hafter.ahead_eq] at hshorter
          obtain ⟨answer, u, hrest⟩ :=
            ihlist (items ++ [v]) hafter (by omega)
          exact ⟨answer, u, .item hanswer hclosing hitem hrest⟩

/-- What a descent comes to is determined, the state of the scanner included. -/
theorem Descends.unique {answer' : Except ReadError Value} {t' : Scanner Token}
    (h : Descends place s answer t) (h' : Descends place s answer' t') :
    answer = answer' ∧ t = t' := by
  induction h generalizing answer' t' with
  | ended hnext =>
    cases h' with
    | ended => exact ⟨rfl, rfl⟩
    | closing h | atom h | opening h => cases hnext.symm.trans h
  | closing hnext =>
    cases h' with
    | closing => exact ⟨rfl, rfl⟩
    | ended h | atom h | opening h => cases hnext.symm.trans h
  | atom hnext =>
    cases h' with
    | atom h => cases hnext.symm.trans h; exact ⟨rfl, rfl⟩
    | ended h | closing h | opening h => cases hnext.symm.trans h
  | opening hnext _ ih =>
    cases h' with
    | opening _ hlist => exact ih hlist
    | ended h | closing h | atom h => cases hnext.symm.trans h
  | unclosed hpeek =>
    cases h' with
    | unclosed => exact ⟨rfl, rfl⟩
    | closed h | item h | failed h => cases hpeek.symm.trans h
  | closed hpeek =>
    cases h' with
    | closed => exact ⟨rfl, rfl⟩
    | unclosed h => cases hpeek.symm.trans h
    | item h hopen | failed h hopen => cases hpeek.symm.trans h; exact absurd rfl hopen
  | item hpeek hopen _ _ ihitem ihrest =>
    cases h' with
    | unclosed h => cases hpeek.symm.trans h
    | closed h => cases hpeek.symm.trans h; exact absurd rfl hopen
    | item _ _ hitem hrest =>
      obtain ⟨hv, rfl⟩ := ihitem hitem
      cases hv
      exact ihrest hrest
    | failed _ _ hitem => cases (ihitem hitem).1
  | failed hpeek hopen _ ihitem =>
    cases h' with
    | unclosed h => cases hpeek.symm.trans h
    | closed h => cases hpeek.symm.trans h; exact absurd rfl hopen
    | item _ _ hitem => cases (ihitem hitem).1
    | failed _ _ hitem =>
      obtain ⟨he, rfl⟩ := ihitem hitem
      exact ⟨he, rfl⟩

end ScopedLisp.Reader
