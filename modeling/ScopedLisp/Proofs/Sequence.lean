import ScopedLisp.Proofs.Depth
import ScopedLisp.Proofs.Spacing
import ScopedLisp.Session

/-!
# A session and `begin`

Texts given to a session one after the other do what one text does in which they stand in a
`begin`: the bindings pass from each to the next in both, the first error ends both, and what was
bound before it stays bound in both. The only difference is the depth that is needed, so the
statement is about endings.
-/

namespace ScopedLisp

open Eval

namespace Session

/-- Granted enough depth, the text ends with this answer and leaves this session. -/
def Ends (s : Session) (source : String) (answer : Except EvalError (Option Value))
    (s' : Session) : Prop :=
  ∃ depth, s.run depth source = (answer.mapError .error, s')

/-- How giving the texts to the session in order ends, with the first error or with the last
text. -/
inductive EndsInOrder : Session → List String → Except EvalError (Option Value) → Session → Prop
  | last {s s' : Session} {source : String} {answer : Except EvalError (Option Value)}
      (h : s.Ends source answer s') : EndsInOrder s [source] answer s'
  | failed {s s' : Session} {source : String} {sources : List String} {e : EvalError}
      (h : s.Ends source (.error e) s') : EndsInOrder s (source :: sources) (.error e) s'
  | next {s s₁ s' : Session} {source : String} {sources : List String} {o : Option Value}
      {answer : Except EvalError (Option Value)} (h : s.Ends source (.ok o) s₁)
      (hrest : EndsInOrder s₁ sources answer s') : EndsInOrder s (source :: sources) answer s'

/-- A text that is an expression ends as that expression does in the frame of the session. -/
theorem ends_iff {s s' : Session} {source : String} {expr : Value}
    {answer : Except EvalError (Option Value)} (h : Reader.readText source = .ok expr) :
    s.Ends source answer s' ↔
      Eval.Ends (fun depth => eval depth expr s.global) s.store answer s'.store ∧
        s'.global = s.global := by
  have hrun (depth : Nat) : evalText depth source s.global s.store =
      eval depth expr s.global s.store := by
    rw [evalText, Eval.read, h]
    rfl
  constructor
  · rintro ⟨depth, hdepth⟩
    rw [run, hrun] at hdepth
    split at hdepth
    · next o t ht =>
      cases answer <;> cases hdepth
      exact ⟨⟨depth, ht⟩, rfl⟩
    · next stop t ht =>
      cases answer <;> cases hdepth
      exact ⟨⟨depth, ht⟩, rfl⟩
  · rintro ⟨⟨depth, hdepth⟩, hglobal⟩
    refine ⟨depth, ?_⟩
    have hended : eval depth expr s.global s.store = ended answer s'.store := hdepth
    rw [run, hrun, hended]
    cases answer <;> rw [← hglobal] <;> rfl

/-- A text that is no expression leaves the session as it was. -/
theorem Ends.of_unreadable {s s' : Session} {source : String}
    {answer : Except EvalError (Option Value)} {e : ReadError} (h : s.Ends source answer s')
    (hread : Reader.readText source = .error e) : answer = .error (.unreadable e) ∧ s' = s := by
  obtain ⟨depth, hdepth⟩ := h
  have hrun : s.run depth source = (.error (.error (.unreadable e)), s) := by
    rw [run, evalText, Eval.read, hread]
    rfl
  rw [hrun] at hdepth
  cases answer <;> cases hdepth
  exact ⟨rfl, rfl⟩

/-- An invariant that allows what is read holds after a text, and of its answer. -/
theorem Ends.keeps {s s' : Session} {source : String} {answer : Except EvalError (Option Value)}
    (h : s.Ends source answer s') (I : Invariant) {w : I.World} (hs : I.Holds w s.store)
    (hf : I.Frame w s.global)
    (hcode : ∀ expr, Reader.readText source = .ok expr → I.Code w expr) :
    ∃ w', I.Later w w' ∧ I.Holds w' s'.store ∧ ∀ v, answer = .ok (some v) → I.Data w' v := by
  cases hread : Reader.readText source with
  | error e =>
    obtain ⟨rfl, rfl⟩ := h.of_unreadable hread
    exact ⟨w, I.later_refl w, hs, nofun⟩
  | ok expr =>
    have hrun (depth : Nat) := I.simulates_eval (Nat.le_refl depth) (hcode expr hread) hf
    exact I.ends hrun hs ((ends_iff hread).mp h).1

theorem stable_foldlM (f : FrameId) (exprs : List Value) (o : Option Value) :
    Stable fun depth => exprs.foldlM (fun _ expr => eval depth expr f) o := by
  induction exprs generalizing o with
  | nil => exact stable_const _
  | cons expr exprs ih =>
    simp only [List.foldlM_cons]
    exact Stable.bind (eval_stable expr f) ih

/-- The loop of `begin` ends as its expressions do one after the other. -/
theorem ends_foldlM_iff {s : Session} {sources : List String} {exprs : List Value}
    (hread : List.Forall₂ (fun source expr => Reader.readText source = .ok expr) sources exprs)
    (hne : sources ≠ []) {o : Option Value} {answer : Except EvalError (Option Value)}
    {s' : Session} :
    Eval.Ends (fun depth => exprs.foldlM (fun _ expr => eval depth expr s.global) o) s.store answer
        s'.store ∧ s'.global = s.global ↔
      s.EndsInOrder sources answer s' := by
  induction hread generalizing s o with
  | nil => exact absurd rfl hne
  | @cons source expr sources exprs hfirst hrest ih =>
    simp only [List.foldlM_cons]
    -- the stores are those of the sessions, and no text changes the frame
    rw [ends_bind_iff (m := fun depth => eval depth expr s.global)
      (k := fun depth o => exprs.foldlM (fun _ expr => eval depth expr s.global) o)
      (eval_stable expr s.global) (stable_foldlM s.global exprs)]
    constructor
    · rintro ⟨⟨e, rfl, hends⟩ | ⟨o, s₁, hends, htail⟩, hglobal⟩
      · exact .failed ((ends_iff hfirst).mpr ⟨hends, hglobal⟩)
      · -- the loop ends with the last expression, the order with the last text
        have hends : s.Ends source (.ok o) ⟨s₁, s.global⟩ := (ends_iff hfirst).mpr ⟨hends, rfl⟩
        cases hrest with
        | nil =>
          obtain ⟨rfl, hstore⟩ := ends_pure_iff.mp htail
          obtain rfl : s' = ⟨s₁, s.global⟩ := by
            cases s'
            simp_all
          exact .last hends
        | cons => exact .next hends ((ih (by simp)).mp ⟨htail, hglobal⟩)
    · intro horder
      cases horder with
      | last h =>
        obtain ⟨hends, hglobal⟩ := (ends_iff hfirst).mp h
        cases hrest
        refine ⟨?_, hglobal⟩
        cases answer with
        | error e => exact .inl ⟨e, rfl, hends⟩
        | ok o => exact .inr ⟨o, _, hends, ends_pure_iff.mpr ⟨rfl, rfl⟩⟩
      | failed h =>
        obtain ⟨hends, hglobal⟩ := (ends_iff hfirst).mp h
        exact ⟨.inl ⟨_, rfl, hends⟩, hglobal⟩
      | @next _ s₁ _ _ _ o _ h horder =>
        obtain ⟨hends, hglobal⟩ := (ends_iff hfirst).mp h
        have hne : sources ≠ [] := by rintro rfl; cases horder
        obtain ⟨htail, hglobal'⟩ := (ih hne).mpr horder
        rw [hglobal] at htail
        exact ⟨.inr ⟨o, _, hends, htail⟩, hglobal'.trans hglobal⟩

theorem readText_begin {sources : List String} {exprs : List Value}
    (hread : List.Forall₂ (fun source expr => Reader.readText source = .ok expr) sources exprs)
    (hne : sources ≠ []) :
    Reader.readText ("(begin " ++ " ".intercalate sources ++ ")") =
      .ok (.list (.special .begin :: exprs)) := by
  have hbegin : Reader.readText "begin" = .ok (.special .begin) :=
    Reader.readText_word (by decide) rfl
  have htext : "(begin " ++ " ".intercalate sources ++ ")" =
      "(" ++ " ".intercalate ("begin" :: sources) ++ ")" := by
    apply String.toList_inj.mp
    simp [String.intercalate_cons_of_ne_nil hne]
  rw [htext]
  exact Reader.readText_list (.cons hbegin hread)

/-- **A `begin` of texts ends exactly as the texts do one after the other.** -/
theorem ends_begin_iff {s s' : Session} {sources : List String}
    {answer : Except EvalError (Option Value)} (hne : sources ≠ [])
    (hread : ∀ source ∈ sources, ∃ expr, Reader.readText source = .ok expr) :
    s.Ends ("(begin " ++ " ".intercalate sources ++ ")") answer s' ↔
      s.EndsInOrder sources answer s' := by
  choose! expr hexpr using hread
  have hexprs : List.Forall₂ (fun source expr => Reader.readText source = .ok expr) sources
      (sources.map expr) :=
    List.forall₂_map_right_iff.mpr (List.forall₂_same.mpr hexpr)
  rw [ends_iff (readText_begin hexprs hne), ends_eval_iff]
  exact ends_foldlM_iff hexprs hne

/-- The second of three texts fails: its error is the answer, and what the first one bound stays
bound. -/
theorem ends_begin_unbound :
    bare.Ends "(begin (define x 1) y 2)" (.error (.unbound "y"))
      ⟨bare.store.define bare.global "x" (.integer 1), bare.global⟩ := by
  have hx : Reader.readText "x" = .ok (.symbol "x") := Reader.readText_word (by decide) rfl
  have hy : Reader.readText "y" = .ok (.symbol "y") := Reader.readText_word (by decide) rfl
  have hone : Reader.readText "1" = .ok (.integer 1) := Reader.readText_word (by decide) rfl
  have htwo : Reader.readText "2" = .ok (.integer 2) := Reader.readText_word (by decide) rfl
  have hword : Reader.readText "define" = .ok (.special .define) :=
    Reader.readText_word (by decide) rfl
  have htext : "(define x 1)" = "(" ++ " ".intercalate ["define", "x", "1"] ++ ")" := by decide
  have hdefine : Reader.readText "(define x 1)" =
      .ok (.list [.special .define, .symbol "x", .integer 1]) := by
    rw [htext]
    exact Reader.readText_list (.cons hword (.cons hx (.cons hone .nil)))
  have hread : ∀ source ∈ ["(define x 1)", "y", "2"], ∃ expr, Reader.readText source = .ok expr := by
    intro source hsource
    obtain rfl | rfl | rfl : source = "(define x 1)" ∨ source = "y" ∨ source = "2" := by
      simpa using hsource
    · exact ⟨_, hdefine⟩
    · exact ⟨_, hy⟩
    · exact ⟨_, htwo⟩
  let bound : Session := ⟨bare.store.define bare.global "x" (.integer 1), bare.global⟩
  have hfirst : bare.Ends "(define x 1)" (.ok none) bound :=
    (ends_iff hdefine).mpr ⟨⟨2, rfl⟩, rfl⟩
  have hsecond : bound.Ends "y" (.error (.unbound "y")) bound := by
    have hchain : bound.store.chain bound.global = [bound.global] := by rw [Store.chain]; rfl
    have hget : bound.store.get? bound.global "y" = none := by
      rw [Store.get?, Store.find?, hchain]
      rfl
    have hrun : eval 1 (.symbol "y") bound.global bound.store =
        .error (.error (.unbound "y")) bound.store := by
      show (some <$> lookup bound.global "y") bound.store = _
      rw [map_eq_pure_bind, bind_apply, lookup_apply, hget]
    exact (ends_iff hy).mpr ⟨⟨1, hrun⟩, rfl⟩
  exact (ends_begin_iff (by simp) hread).mpr (.next hfirst (.failed hsecond))

end Session

end ScopedLisp
