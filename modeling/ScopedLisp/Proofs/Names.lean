import ScopedLisp.Proofs.Sequence
import ScopedLisp.Proofs.WellFormed

/-!
# Names stay readable

Whatever a session goes through, each name in it can be written down and read again. Names come
into a store by the table of primitives, by `define` and `set!`, and by the parameters of a
closure; symbols are also passed around as data. All of them were read from a text at first, and
no operation makes a new one.

`IsName` says which names those are, and `Value.Named` that a value has no other ones, in
whatever it holds. In particular no frame binds a reserved word.
-/

namespace ScopedLisp

open Eval

namespace Reader

/-- A name that is read as the symbol of that name: a word that is no numeral and not reserved. -/
structure IsName (name : String) : Prop where
  reads : atom name = .ok (.symbol name)
  ne_empty : name ≠ ""
  isWord : Token.IsWord name.toList
  not_integer : integer? name.toList = none
  not_numeral : (Decimal.numeral? name.toList).isNone
  not_reserved : SpecialForm.ofName? name = none

theorem atom_eq_symbol {name : String} (hne : name ≠ "")
    (hinteger : integer? name.toList = none)
    (hnumeral : (Decimal.numeral? name.toList).isNone)
    (hreserved : SpecialForm.ofName? name = none) : atom name = .ok (.symbol name) := by
  unfold atom
  rw [if_neg (by simpa using hne), hinteger]
  simp only [Option.isNone_iff_eq_none.mp hnumeral, Value.ofName, hreserved]
  rfl

theorem isName_iff {name : String} :
    IsName name ↔ name ≠ "" ∧ Token.IsWord name.toList ∧ integer? name.toList = none ∧
      (Decimal.numeral? name.toList).isNone ∧ SpecialForm.ofName? name = none := by
  constructor
  · intro h
    exact ⟨h.ne_empty, h.isWord, h.not_integer, h.not_numeral, h.not_reserved⟩
  · intro ⟨hne, hword, hinteger, hnumeral, hreserved⟩
    exact ⟨atom_eq_symbol hne hinteger hnumeral hreserved, hne, hword, hinteger, hnumeral,
      hreserved⟩

instance (name : String) : Decidable (IsName name) := decidable_of_iff' _ isName_iff

/-- The symbol that a word is read as has the word as its name, and that is a name. -/
theorem isName_of_atom {text name : String} (hword : Token.IsWord text.toList)
    (h : atom text = .ok (.symbol name)) : IsName name := by
  unfold atom at h
  split at h
  · cases h
  · next hempty =>
    split at h
    · cases h
    · next hinteger =>
      split at h
      · cases h
      · next hnumeral =>
        unfold Value.ofName at h
        split at h
        · cases h
        · next hreserved =>
          cases h
          exact isName_iff.mpr
            ⟨by simpa using hempty, hword, hinteger, by simp [hnumeral], hreserved⟩

theorem IsName.ne_form {name : String} (h : IsName name) (form : SpecialForm) :
    name ≠ form.name := by
  intro heq
  have hform := SpecialForm.ofName?_name form
  rw [← heq, h.not_reserved] at hform
  cases hform

end Reader

open Reader

/-! ## Names in values -/

namespace Value

/-- The names that the value shows itself, not those in its items or its body. -/
def ownNames : Value → List String
  | symbol name => [name]
  | closure _ params _ _ => params
  | _ => []

/-- All names in the value can be read. -/
def Named (v : Value) : Prop := v.All fun x => ∀ name ∈ x.ownNames, IsName name

/-- A value without names of its own and without parts has no names. -/
theorem named_leaf {v : Value} (hnames : v.ownNames = []) (hlist : v.isList = false)
    (hclosure : ∀ id params body home, v = .closure id params body home → False) : v.Named :=
  (all_leaf hlist hclosure).mpr (by simp [hnames])

theorem named_symbol {name : String} : Named (.symbol name) ↔ IsName name := by
  unfold Named
  rw [all_symbol]
  simp [ownNames]

theorem named_list {items : List Value} : Named (.list items) ↔ ∀ v ∈ items, v.Named := by
  unfold Named
  rw [all_list]
  simp [ownNames]

theorem named_closure {id : ClosureId} {params : List String} {body : Value} {home : FrameId} :
    Named (.closure id params body home) ↔ (∀ name ∈ params, IsName name) ∧ body.Named := by
  unfold Named
  rw [all_closure]
  rfl

end Value

/-! ## Names in texts -/

namespace Reader

/-- What an atom is read as shows no name but one that can be read. -/
theorem named_of_atom {text : String} {v : Value} (hword : Token.IsWord text.toList)
    (h : atom text = .ok v) : v.Named := by
  cases v with
  | symbol name => exact Value.named_symbol.mpr (isName_of_atom hword h)
  | integer | float | special | primitive => exact Value.named_leaf rfl rfl nofun
  | list items => exact absurd (isList_of_atom h) (by simp [Value.isList])
  | closure id params body home =>
    unfold atom at h
    repeat' split at h
    all_goals try cases h
    unfold Value.ofName at h
    split at h <;> cases h

/-- A tree that words spell has only names that can be read. -/
theorem named_of_spelled {v : Value} {used : List Token} (h : Spelled used v.pieces)
    (hwords : ∀ text, .atom text ∈ used → Token.IsWord text.toList) : v.Named :=
  all_of_spelled h (fun _ _ hname => absurd hname List.not_mem_nil) fun text _ htext hatom =>
    (named_of_atom (hwords text htext) hatom).self

theorem named_of_readText {source : String} {v : Value} (h : readText source = .ok v) :
    v.Named :=
  named_of_spelled (readText_eq_ok_iff.mp h) fun _ htext => (atom_mem_tokens htext).2

end Reader

/-! ## Names in stores -/

/-- All names that the store binds, and those in what it binds, can be read. -/
def Store.Named (s : Store) : Prop := s.AllBound fun _ name v => IsName name ∧ v.Named

namespace Store

variable {s : Store}

/-- The table of primitives has no other names either. -/
theorem Named.pushRoot (h : s.Named) : s.pushRoot.Named := by
  refine AllBound.push h fun name v hv => ?_
  have hprimitives : ∀ p ∈ Primitive.all, IsName p.name := by decide
  rcases List.mem_append.mp (Bindings.mem_of_get? hv) with hentry | hentry
  · obtain ⟨p, hp, hpair⟩ := List.mem_map.mp hentry
    cases hpair
    exact ⟨hprimitives p hp, Value.named_leaf rfl rfl nofun⟩
  · cases List.mem_singleton.mp hentry
    exact ⟨by decide, Value.named_leaf rfl rfl nofun⟩

end Store

/-! ## Whole runs -/

theorem named_parameterNames {params : Value} {names : List String} (hparams : params.Named)
    (h : parameterNames params = .ok names) : ∀ name ∈ names, IsName name := by
  rw [parameterNames_eq_ok_iff] at h
  subst h
  intro name hname
  exact Value.named_symbol.mp (Value.named_list.mp hparams _ (List.mem_map_of_mem hname))

/-- No action brings in a name that was not there before. -/
def naming : Invariant where
  World := Unit
  Later _ _ := True
  Holds _ s := s.Named
  Frame _ _ := True
  Code _ := Value.Named
  Data _ := Value.Named
  later_refl _ := .intro
  later_trans _ _ := .intro
  frame_later _ _ := .intro
  code_later _ h := h
  data_later _ h := h
  code_items h := Value.named_list.mp h
  data_of_code h := h
  data_integer := Value.named_leaf rfl rfl nofun
  data_float := Value.named_leaf rfl rfl nofun
  data_list := Value.named_list
  code_body h := (Value.named_closure.mp h).2
  lookup := by
    intro _ s f name v hs _ _ hget
    obtain ⟨_, -, _, hv⟩ := Store.AllBound.get? hs hget
    exact hv
  define := by
    intro _ s f name expr v hs _ hcode hv
    have hname : IsName name := Value.named_symbol.mp (Value.named_list.mp hcode _ (by simp))
    exact ⟨(), .intro, Store.AllBound.define hs ⟨hname, hv⟩⟩
  assign := by
    intro _ s f g name expr v hs _ hcode hv _
    have hname : IsName name := Value.named_symbol.mp (Value.named_list.mp hcode _ (by simp))
    exact ⟨(), .intro, Store.AllBound.define hs ⟨hname, hv⟩⟩
  enter := by
    intro _ s id params body home args hs hclosure hargs _
    refine ⟨(), .intro, .intro, Store.AllBound.push hs fun name v hv => ?_⟩
    obtain ⟨hname, hv⟩ := List.of_mem_zip (Bindings.mem_zip_of_get?_ofPairs hv)
    exact ⟨(Value.named_closure.mp hclosure).1 name hname, hargs v hv⟩
  close := by
    intro _ s f params body names hs _ hcode hnames
    have hparams : params.Named := Value.named_list.mp hcode _ (by simp)
    have hbody : body.Named := Value.named_list.mp hcode _ (by simp)
    exact ⟨(), .intro, Value.named_closure.mpr ⟨named_parameterNames hparams hnames, hbody⟩, hs⟩

namespace Session

/-- The sessions that texts lead to, from a new one on. A text that fails leads on as well. -/
inductive Reached : Session → Prop
  | start : Reached start
  | bare : Reached bare
  | text {s s' : Session} {source : String} {answer : Except EvalError (Option Value)}
      (h : Reached s) (hends : s.Ends source answer s') : Reached s'

/-- A text leaves only names that can be read, in the store and in its result. -/
theorem Ends.named {s s' : Session} {source : String} {answer : Except EvalError (Option Value)}
    (h : s.Ends source answer s') (hs : s.store.Named) :
    s'.store.Named ∧ ∀ v, answer = .ok (some v) → v.Named := by
  obtain ⟨_, -, hs', hdata⟩ :=
    h.keeps naming (w := ()) hs .intro fun _ hread => named_of_readText hread
  exact ⟨hs', hdata⟩

theorem Reached.named {s : Session} (h : s.Reached) : s.store.Named := by
  induction h with
  | start => exact Store.Named.pushRoot Store.allBound_empty
  | bare => exact Store.AllBound.push Store.allBound_empty nofun
  | text _ hends ih => exact (hends.named ih).1

/-- **Names stay readable, and no reserved word is ever bound.** -/
theorem Reached.names_readable {s : Session} (h : s.Reached) :
    (∀ f name v, s.store.binding? f name = some v →
        IsName name ∧ ∀ x, Value.Occurs x v → ∀ n ∈ x.ownNames, IsName n) ∧
      (∀ source v s', s.Ends source (.ok (some v)) s' →
        ∀ x, Value.Occurs x v → ∀ n ∈ x.ownNames, IsName n) ∧
      ∀ f (form : SpecialForm), s.store.binds f form.name = false := by
  have hnamed := h.named
  refine ⟨hnamed, fun source v s' hends => (hends.named hnamed).2 v rfl, fun f form => ?_⟩
  cases hbound : s.store.binding? f form.name with
  | none => rw [Store.binds, hbound]; rfl
  | some v => exact absurd rfl ((hnamed f form.name v hbound).1.ne_form form)

/-- A closure with a parameter and a symbol in its body, bound in the frame of a new session. -/
theorem names_readable_lambda :
    ∃ s : Session, s.Reached ∧
      s.store.binding? 0 "f" = some (.closure 0 ["x"] (.symbol "y") 0) ∧
      IsName "f" ∧ IsName "x" ∧ IsName "y" ∧ s.store.binds 0 "if" = false := by
  let f : Value := .closure 0 ["x"] (.symbol "y") 0
  let s : Session := ⟨{ bare.store with closures := 1 }.define 0 "f" f, bare.global⟩
  have hparams : readText "(x)" = .ok (.list [.symbol "x"]) := by
    have htext : "(x)" = "(" ++ " ".intercalate ["x"] ++ ")" := by decide
    rw [htext]
    exact readText_list (.cons (readText_word (by decide) rfl) .nil)
  have hlambda : readText "(lambda (x) y)" =
      .ok (.list [.special .lambda, .list [.symbol "x"], .symbol "y"]) := by
    have htext : "(lambda (x) y)" = "(" ++ " ".intercalate ["lambda", "(x)", "y"] ++ ")" := by
      decide
    rw [htext]
    exact readText_list (.cons (readText_word (by decide) rfl)
      (.cons hparams (.cons (readText_word (by decide) rfl) .nil)))
  have hdefine : readText "(define f (lambda (x) y))" = .ok (.list [.special .define, .symbol "f",
      .list [.special .lambda, .list [.symbol "x"], .symbol "y"]]) := by
    have htext : "(define f (lambda (x) y))" =
        "(" ++ " ".intercalate ["define", "f", "(lambda (x) y)"] ++ ")" := by decide
    rw [htext]
    exact readText_list (.cons (readText_word (by decide) rfl)
      (.cons (readText_word (by decide) rfl) (.cons hlambda .nil)))
  have hends : bare.Ends "(define f (lambda (x) y))" (.ok none) s :=
    (ends_iff hdefine).mpr ⟨⟨3, rfl⟩, rfl⟩
  have hreached : s.Reached := .text .bare hends
  have hbound : s.store.binding? 0 "f" = some f := rfl
  obtain ⟨hnames, -, hreserved⟩ := hreached.names_readable
  obtain ⟨hname, hvalue⟩ := hnames 0 "f" f hbound
  exact ⟨s, hreached, hbound, hname, hvalue f .self "x" (by simp [f, Value.ownNames]),
    hvalue (.symbol "y") (.body .self) "y" (by simp [Value.ownNames]), hreserved 0 .branch⟩

end Session

end ScopedLisp
